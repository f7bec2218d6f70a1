/-
# What is left of a comment

Which part of a comment is left without its delimiters is put down as a
relation that does not go through the text (`Strips`):

    text without any opening delimiter      all of it
    opening · rest                          rest, which does not end in the closing delimiter
    opening · rest · closing                rest

The two delimiters taken off stand side by side in the text with what is left
between them, so they never share a character: `/*/` is `/*` with the slash
left, and `<!-->` is `<!--` with the angle left.  No opening delimiter starts
another one, so at most one thing is left of a text (`Strips.unique`), and it is
what `stripDelimiters` gives (`strips_stripDelimiters`).

Delimiters have no letter and no digit, so a comment keeps all of its own, and it
is blank just when what is left of it is.
-/
import Mathlib.Data.List.Infix
import SourceMetrics.JavaScript.Comment

namespace SourceMetrics.JavaScript

open SourceMetrics.Text (isLetterOrDigit)

/-! ## Delimiters -/

/-- What a comment starts with, and what it ends with, unless it is the line
that ends it. -/
structure Delimiter where
  opening : String
  closing? : Option String
deriving DecidableEq, Repr

/-- The delimiters of JavaScript. -/
def delimiters : List Delimiter :=
  [⟨"//", none⟩, ⟨"/*", some "*/"⟩, ⟨"<!--", some "-->"⟩]

/-- No opening delimiter is the start of another one. -/
theorem eq_of_opening_isPrefix {d d' : Delimiter} (hd : d ∈ delimiters) (hd' : d' ∈ delimiters)
    {cs : List Char} (h : d.opening.toList <+: cs) (h' : d'.opening.toList <+: cs) : d = d' := by
  have hapart : ∀ a ∈ delimiters, ∀ b ∈ delimiters,
      a.opening.toList <+: b.opening.toList → a = b := by decide
  rcases List.prefix_or_prefix_of_prefix h h' with hstarts | hstarts
  · exact hapart d hd d' hd' hstarts
  · exact (hapart d' hd' d hd hstarts).symm

/-! ## What is left -/

/-- Without its delimiters, `text` is `rest`. -/
inductive Strips (text rest : String) : Prop
  | bare (hnone : ∀ d ∈ delimiters, ¬ d.opening.toList <+: text.toList) (htext : text = rest)
  | opened {d : Delimiter} (hd : d ∈ delimiters) (htext : text = d.opening ++ rest)
      (hopen : ∀ closing ∈ d.closing?, ¬ closing.toList <:+ rest.toList)
  | enclosed {d : Delimiter} {closing : String} (hd : d ∈ delimiters)
      (hclosing : d.closing? = some closing) (htext : text = d.opening ++ rest ++ closing)

namespace Strips

variable {text rest rest' : String}

/-- A text starts with its opening delimiter. -/
theorem opening_isPrefix {opening behind : String} (h : text = opening ++ behind) :
    opening.toList <+: text.toList := by
  rw [h, String.toList_append]
  exact List.prefix_append _ _

/-- What stands behind the opening delimiter is fixed by the text. -/
theorem behind_unique {d d' : Delimiter} (hd : d ∈ delimiters) (hd' : d' ∈ delimiters)
    {behind behind' : String} (h : text = d.opening ++ behind) (h' : text = d'.opening ++ behind') :
    d = d' ∧ behind = behind' := by
  obtain rfl := eq_of_opening_isPrefix hd hd' (opening_isPrefix h) (opening_isPrefix h')
  refine ⟨rfl, ?_⟩
  rw [h, String.ext_iff, String.toList_append, String.toList_append] at h'
  exact String.ext (List.append_cancel_left h')

/-- A text that is enclosed ends in the closing delimiter. -/
theorem not_opened_of_enclosed {d d' : Delimiter} (hd : d ∈ delimiters) (hd' : d' ∈ delimiters)
    {closing : String} (hclosing : d.closing? = some closing)
    (htext : text = d.opening ++ rest ++ closing) (htext' : text = d'.opening ++ rest') :
    ¬ ∀ closing ∈ d'.closing?, ¬ closing.toList <:+ rest'.toList := by
  intro hopen
  rw [String.append_assoc] at htext
  obtain ⟨rfl, hrest⟩ := behind_unique hd hd' htext htext'
  refine hopen closing hclosing ?_
  rw [← hrest, String.toList_append]
  exact List.suffix_append _ _

/-- At most one thing is left of a text. -/
theorem unique (h : Strips text rest) (h' : Strips text rest') : rest = rest' := by
  cases h with
  | bare hnone htext =>
      cases h' with
      | bare _ htext' => exact htext.symm.trans htext'
      | opened hd' htext' _ => exact absurd (opening_isPrefix htext') (hnone _ hd')
      | enclosed hd' _ htext' =>
          rw [String.append_assoc] at htext'
          exact absurd (opening_isPrefix htext') (hnone _ hd')
  | opened hd htext hopen =>
      cases h' with
      | bare hnone' _ => exact absurd (opening_isPrefix htext) (hnone' _ hd)
      | opened hd' htext' _ => exact (behind_unique hd hd' htext htext').2
      | enclosed hd' hclosing' htext' =>
          exact absurd hopen (not_opened_of_enclosed hd' hd hclosing' htext' htext)
  | enclosed hd hclosing htext =>
      cases h' with
      | bare hnone' _ =>
          rw [String.append_assoc] at htext
          exact absurd (opening_isPrefix htext) (hnone' _ hd)
      | opened hd' htext' hopen' =>
          exact absurd hopen' (not_opened_of_enclosed hd hd' hclosing htext htext')
      | enclosed hd' hclosing' htext' =>
          rw [String.append_assoc] at htext htext'
          obtain ⟨rfl, hrest⟩ := behind_unique hd hd' htext htext'
          obtain rfl := Option.some.inj (hclosing.symm.trans hclosing')
          rw [String.ext_iff, String.toList_append, String.toList_append] at hrest
          exact String.ext (List.append_cancel_right hrest)

/-- What is left is a part of the text in one piece. -/
theorem isInfix (h : Strips text rest) : rest.toList <:+: text.toList := by
  cases h with
  | bare _ htext => exact htext ▸ List.infix_rfl
  | @opened d _ htext _ =>
      refine ⟨d.opening.toList, [], ?_⟩
      rw [htext, String.toList_append, List.append_nil]
  | @enclosed d closing _ _ htext =>
      refine ⟨d.opening.toList, closing.toList, ?_⟩
      rw [htext, String.toList_append, String.toList_append]

/-- All letters and digits of a text are left, in their order. -/
theorem filter_isLetterOrDigit (h : Strips text rest) :
    rest.toList.filter isLetterOrDigit = text.toList.filter isLetterOrDigit := by
  have hopening : ∀ d ∈ delimiters, d.opening.toList.filter isLetterOrDigit = [] := by decide
  have hclosing : ∀ d ∈ delimiters, ∀ closing ∈ d.closing?,
      closing.toList.filter isLetterOrDigit = [] := by decide
  cases h with
  | bare _ htext => rw [htext]
  | opened hd htext _ =>
      rw [htext, String.toList_append, List.filter_append, hopening _ hd, List.nil_append]
  | enclosed hd hsome htext =>
      rw [htext, String.toList_append, String.toList_append, List.filter_append,
        List.filter_append, hopening _ hd, hclosing _ hd _ hsome, List.nil_append, List.append_nil]

end Strips

/-! ## The function -/

/-- Behind the opening delimiter, the closing one is taken off the end. -/
theorem strips_dropClosing {d : Delimiter} {closing : String} (hd : d ∈ delimiters)
    (hclosing : d.closing? = some closing) {behind : List Char} {text : String}
    (htext : d.opening.toList ++ behind = text.toList) :
    Strips text (String.ofList (dropClosing closing.toList behind)) := by
  rw [dropClosing]
  cases hsuffix : closing.toList.isSuffixOf? behind with
  | some rest =>
      refine .enclosed hd hclosing (String.ext ?_)
      rw [← htext, ← List.append_eq_of_isSuffixOf?_eq_some hsuffix, String.toList_append,
        String.toList_append, Option.getD_some, String.toList_ofList, List.append_assoc]
  | none =>
      refine .opened hd (String.ext ?_) ?_
      · rw [String.toList_append, Option.getD_none, String.toList_ofList, htext]
      · rintro closing' hclosing' ⟨rest, hrest⟩
        obtain rfl := Option.some.inj (hclosing.symm.trans hclosing')
        rw [Option.getD_none, String.toList_ofList] at hrest
        rw [List.isSuffixOf?_eq_some_iff_append_eq.mpr hrest] at hsuffix
        cases hsuffix

theorem not_isPrefix_of_isPrefixOf? {opening cs : List Char} (h : opening.isPrefixOf? cs = none) :
    ¬ opening <+: cs := by
  rintro ⟨rest, hrest⟩
  rw [List.isPrefixOf?_eq_some_iff_append_eq.mpr hrest] at h
  cases h

theorem strips_stripDelimiters (text : String) : Strips text (stripDelimiters text) := by
  unfold stripDelimiters stripChars
  split
  next rest hline =>
    have htext := List.append_eq_of_isPrefixOf?_eq_some hline
    refine .opened (d := ⟨"//", none⟩) (by decide) (String.ext ?_)
      (fun closing h => absurd h (Option.not_mem_none closing))
    have hrest : (String.ofList rest).toList = rest := String.toList_ofList
    rw [String.toList_append, hrest, htext]
  next hline =>
    split
    next behind hblock =>
      exact strips_dropClosing (d := ⟨"/*", some "*/"⟩) (by decide) rfl
        (List.append_eq_of_isPrefixOf?_eq_some hblock)
    next hblock =>
      split
      next behind hhtml =>
        exact strips_dropClosing (d := ⟨"<!--", some "-->"⟩) (by decide) rfl
          (List.append_eq_of_isPrefixOf?_eq_some hhtml)
      next hhtml =>
        refine .bare ?_ String.ofList_toList.symm
        simp only [delimiters, List.forall_mem_cons]
        exact ⟨not_isPrefix_of_isPrefixOf? hline, not_isPrefix_of_isPrefixOf? hblock,
          not_isPrefix_of_isPrefixOf? hhtml, fun _ h => absurd h List.not_mem_nil⟩

/-- A text has no content when it has no letter and no digit. -/
theorem hasNoContent_iff (text : String) :
    CommentAnalyser.hasNoContent text = true ↔ text.toList.filter isLetterOrDigit = [] := by
  rw [CommentAnalyser.hasNoContent, Bool.not_eq_true', List.any_eq_false, List.filter_eq_nil_iff]

/-- What is left of any text is a part of it in one piece.  It lacks an opening
delimiter if the text starts with one, and the closing delimiter that goes with
it if what follows ends in that, and nothing else: this says which part it is.  So
it has all letters and digits of the text, and is blank just when the text is. -/
theorem strip_keeps_content (text : String) :
    let rest := commentAnalyser.strip text
    (∀ part, Strips text part ↔ part = rest) ∧
    rest.toList <:+: text.toList ∧
    rest.toList.filter isLetterOrDigit = text.toList.filter isLetterOrDigit ∧
    commentAnalyser.isBlank rest = commentAnalyser.isBlank text := by
  intro rest
  have hstrips : Strips text rest := strips_stripDelimiters text
  have hcontent := hstrips.filter_isLetterOrDigit
  refine ⟨fun part => ⟨fun h => h.unique hstrips, fun h => h ▸ hstrips⟩, hstrips.isInfix,
    hcontent, ?_⟩
  rw [Bool.eq_iff_iff]
  calc CommentAnalyser.hasNoContent rest = true
      ↔ rest.toList.filter isLetterOrDigit = [] := hasNoContent_iff rest
    _ ↔ text.toList.filter isLetterOrDigit = [] := by rw [hcontent]
    _ ↔ CommentAnalyser.hasNoContent text = true := (hasNoContent_iff text).symm

/-- A closing delimiter that shares characters with the opening one is none. -/
example : stripDelimiters "/*/" = "/" ∧ stripDelimiters "<!-->" = ">" := by decide

end SourceMetrics.JavaScript
