/-
# Components of paths and their order

A path to a file below a directory is made up name by name, with `join`.  In
its components each name comes last (`components_join`), however the path of
the directory ends; so paths that differ in a name differ in a component.

Components are ordered by their kind and then by their text, and paths by
their components, from the first one on.  Both orders are linear, and what
`before` decides is the strict one of them (`before_iff`).
-/
import Mathlib.Data.List.Lex
import Mathlib.Data.Prod.Lex
import Mathlib.Data.String.Basic
import SourceMetrics.Files.Path

namespace SourceMetrics.Path

/-! ## Names -/

/-- What a file or directory can be called. -/
structure IsName (name : String) : Prop where
  nonempty : name ≠ ""
  ne_here : name ≠ "."
  ne_up : name ≠ ".."
  slashless : '/' ∉ name.toList

instance (name : String) : Decidable (IsName name) :=
  decidable_of_iff (name ≠ "" ∧ name ≠ "." ∧ name ≠ ".." ∧ '/' ∉ name.toList)
    ⟨fun ⟨h₁, h₂, h₃, h₄⟩ => ⟨h₁, h₂, h₃, h₄⟩, fun ⟨h₁, h₂, h₃, h₄⟩ => ⟨h₁, h₂, h₃, h₄⟩⟩

theorem component?_of_isName {name : String} (h : IsName name) :
    component? name = some (.name name) := by
  unfold component?
  simp only [String.isEmpty_iff, beq_iff_eq, Bool.or_eq_true, h.nonempty, h.ne_here, h.ne_up,
    or_self, if_false]

/-! ## Parts -/

theorem partsFrom_of_slashless {cs : List Char} (h : '/' ∉ cs) (reversed : List Char) :
    partsFrom reversed cs = [reversed.reverse ++ cs] := by
  induction cs generalizing reversed with
  | nil => rw [partsFrom, List.append_nil]
  | cons c cs ih =>
      obtain ⟨hc, hcs⟩ := not_or.mp (mt List.mem_cons.mpr h)
      rw [partsFrom, if_neg (Ne.symm hc), ih hcs, List.reverse_cons, List.append_assoc]
      rfl

/-- What follows the last slash is a part of its own. -/
theorem partsFrom_append {name : List Char} (h : '/' ∉ name) (reversed cs : List Char) :
    partsFrom reversed (cs ++ '/' :: name) = partsFrom reversed cs ++ [name] := by
  induction cs generalizing reversed with
  | nil =>
      have hrest := partsFrom_of_slashless h []
      simp only [List.nil_append, partsFrom, if_true, hrest]
      rfl
  | cons c cs ih =>
      rw [List.cons_append, partsFrom, partsFrom]
      split
      · rw [ih, List.cons_append]
      · rw [ih]

theorem partsFrom_ne_nil (reversed cs : List Char) : partsFrom reversed cs ≠ [] := by
  induction cs generalizing reversed with
  | nil => exact List.cons_ne_nil _ _
  | cons c cs ih =>
      rw [partsFrom]
      split
      · exact List.cons_ne_nil _ _
      · exact ih (c :: reversed)

/-- Only the empty text has an empty part and no other. -/
theorem eq_nil_of_partsFrom {reversed cs : List Char} (h : partsFrom reversed cs = [[]]) :
    reversed = [] ∧ cs = [] := by
  induction cs generalizing reversed with
  | nil => exact ⟨List.reverse_eq_nil_iff.mp (List.singleton_inj.mp h), rfl⟩
  | cons c cs ih =>
      rw [partsFrom] at h
      split at h
      · exact absurd (List.cons.inj h).2 (partsFrom_ne_nil [] cs)
      · exact absurd (ih h).1 (List.cons_ne_nil c reversed)

theorem parts_append {name : String} (h : '/' ∉ name.toList) (directory : String) :
    parts (directory ++ "/" ++ name) = parts directory ++ [name] := by
  have hchars : (directory ++ "/" ++ name).toList = directory.toList ++ '/' :: name.toList := by
    rw [String.toList_append, String.toList_append, List.append_assoc]
    rfl
  rw [parts, hchars, partsFrom_append h, List.map_append, List.map_singleton,
    String.ofList_toList, parts]

theorem parts_ne_nil (path : String) : parts path ≠ [] :=
  fun h => partsFrom_ne_nil _ _ (List.map_eq_nil_iff.mp h)

theorem eq_empty_of_parts {path : String} (h : parts path = [""]) : path = "" := by
  obtain ⟨part, hpart, hempty⟩ := List.map_eq_singleton_iff.mp h
  obtain rfl : part = [] := String.ofList_injective hempty
  exact String.toList_eq_nil_iff.mp (eq_nil_of_partsFrom hpart).2

/-! ## Components -/

theorem components_of_slashless {name : String} (h : IsName name) :
    components name = [.name name] := by
  have hparts : parts name = [name] := by
    rw [parts, partsFrom_of_slashless h.slashless, List.reverse_nil, List.nil_append,
      List.map_singleton, String.ofList_toList]
  have hfirst : name.isEmpty = false := Bool.eq_false_iff.mpr (mt String.isEmpty_iff.mp h.nonempty)
  have hhere : (name == ".") = false := beq_eq_false_iff_ne.mpr h.ne_here
  simp only [components, hparts, hfirst, hhere, component?_of_isName h, Bool.false_eq_true,
    if_false]
  rfl

/-- A name that follows a slash is one more component. -/
theorem components_append {name : String} (hname : IsName name) {directory : String}
    (hne : directory ≠ "") :
    components (directory ++ "/" ++ name) = components directory ++ [.name name] := by
  have h := parts_append hname.slashless directory
  cases hparts : parts directory with
  | nil => exact absurd hparts (parts_ne_nil directory)
  | cons first rest =>
      rw [hparts] at h
      -- A path whose first part is empty starts at the root if there is another.
      have hstart : first.isEmpty = true → rest.isEmpty = false := by
        intro hfirst
        cases rest with
        | nil => exact absurd (eq_empty_of_parts (String.isEmpty_iff.mp hfirst ▸ hparts)) hne
        | cons _ _ => rfl
      have hmore : (rest ++ [name]).isEmpty = false := by cases rest <;> rfl
      simp only [components, h, hparts, List.cons_append, List.filterMap_append, hmore,
        List.filterMap_cons, List.filterMap_nil, component?_of_isName hname, List.append_assoc]
      cases hfirst : first.isEmpty with
      | true => rw [hstart hfirst]
      | false => rfl

/-- The empty part behind the last slash is no component. -/
theorem components_append_after_slash {name : String} (hname : IsName name) (front : String) :
    components (front ++ "/" ++ name) = components (front ++ "/") ++ [.name name] := by
  have h := parts_append hname.slashless front
  have hempty : parts (front ++ "/" ++ "") = parts front ++ [""] :=
    parts_append List.not_mem_nil front
  rw [String.append_empty] at hempty
  cases hparts : parts front with
  | nil => exact absurd hparts (parts_ne_nil front)
  | cons first rest =>
      rw [hparts] at h hempty
      have hmore : ∀ part, (rest ++ [part]).isEmpty = false := by
        intro part
        cases rest <;> rfl
      have hnone : component? "" = none := rfl
      simp only [components, h, hempty, List.cons_append, List.filterMap_append, hmore,
        List.filterMap_cons, List.filterMap_nil, component?_of_isName hname, hnone,
        List.append_nil, List.append_assoc]

/-- The name of a file or directory is the last component of its path. -/
theorem components_join {name : String} (hname : IsName name) (directory : String) :
    components (join directory name) = components directory ++ [.name name] := by
  rw [join]
  split
  next hends =>
    rw [Bool.or_eq_true, String.isEmpty_iff, beq_iff_eq, List.getLast?_eq_some_iff] at hends
    rcases hends with rfl | ⟨front, hfront⟩
    · rw [String.empty_append]
      exact components_of_slashless hname
    · have hdirectory : directory = String.ofList front ++ "/" := by
        rw [String.ext_iff, hfront, String.toList_append, String.toList_ofList]
        rfl
      rw [hdirectory]
      exact components_append_after_slash hname (String.ofList front)
  next hends =>
    rw [Bool.or_eq_true, not_or, String.isEmpty_iff] at hends
    exact components_append hname hends.1

/-! ## Order -/

namespace Component

/-- What a component is ordered by. -/
def key (c : Component) : ℕ ×ₗ String := toLex (c.rank, c.text)

theorem key_injective : Function.Injective key := by
  intro a b h
  obtain ⟨hrank, htext⟩ := Prod.mk.inj (toLex.injective h)
  cases a <;> cases b <;> first | rfl | exact congrArg name htext | cases hrank

instance : LinearOrder Component := LinearOrder.lift' key key_injective

theorem before_iff {a b : Component} : a.before b = true ↔ a < b := by
  show _ ↔ a.key < b.key
  rw [before, key, key, Prod.Lex.toLex_lt_toLex, Bool.or_eq_true, Bool.and_eq_true,
    decide_eq_true_iff, decide_eq_true_iff, decide_eq_true_iff]

end Component

theorem componentsBefore_iff {as bs : List Component} :
    componentsBefore as bs = true ↔ as < bs := by
  induction as generalizing bs with
  | nil =>
      cases bs with
      | nil => exact ⟨fun h => (Bool.false_ne_true h).elim, fun h => absurd h (lt_irrefl [])⟩
      | cons b bs => exact ⟨fun _ => List.nil_lt_cons b bs, fun _ => rfl⟩
  | cons a as ih =>
      cases bs with
      | nil => exact ⟨fun h => (Bool.false_ne_true h).elim, fun h => absurd h (List.not_lt_nil _)⟩
      | cons b bs =>
          rw [componentsBefore, Bool.or_eq_true, Bool.and_eq_true, Component.before_iff, beq_iff_eq,
            ih]
          exact List.cons_lt_cons_iff.symm

/-- Paths are ordered by their components, from the first one on. -/
theorem before_iff {a b : String} : before a b = true ↔ components a < components b :=
  componentsBefore_iff

end SourceMetrics.Path
