/-
# A scan that fails

The scan of one file can fail at three places: the file cannot be read, its
text does not parse, or the pass is done and the index refuses the tree,
since a file of the key is there (`FileRequest.fault?`).  The pass itself
never fails.

What is left behind differs.  In the first two cases no visitor was called
and the scanner is as it was.  In the third the visitors have seen the whole
file, but the index is as it was down to the totals it gathers.  That the
states of the visitors do not show later on is a matter of likeness: no reply
rests on them (`replies_of_memories`), and where visitors keep nothing but
their setup from file to file, no measure does (`index_after_of_memories`).
-/
import SourceMetrics.Proofs.Scan.Forgetting
import SourceMetrics.Proofs.Scan.Likeness

namespace SourceMetrics

open UnitIndex

variable {σ α κ : Type}

/-! ## Why a scan fails -/

namespace FileRequest

/-- Why a file cannot be scanned, given the grammar and the files there are. -/
def fault? (r : FileRequest) (grammar : Grammar) (index : UnitIndex α) : Option ScanError :=
  match r.content with
  | .error fault => some (.io r.key fault)
  | .ok words =>
    match grammar.parse words with
    | .error fault => some (.parse r.key fault)
    | .ok _ =>
      if index.holdsFile r.key then some (.invariant (.alreadyIndexed .file r.key)) else none

/-- The file cannot be read, its text does not parse, or a file of its key is
right below the project. -/
theorem fault?_eq_some_iff (r : FileRequest) (grammar : Grammar) (index : UnitIndex α) :
    (∃ err, r.fault? grammar index = some err) ↔
      (∃ fault, r.content = .error fault) ∨
      (∃ text fault, r.content = .ok text ∧ grammar.parse text = .error fault) ∨
      ∃ u ∈ index.children projectId, u.key = r.key := by
  have hholds : index.holdsFile r.key = true ↔ ∃ u ∈ index.children projectId, u.key = r.key := by
    simp only [holdsFile, List.any_eq_true, beq_iff_eq]
  rw [← hholds, fault?]
  cases hcontent : r.content with
  | error fault => simp
  | ok text =>
      cases hparse : grammar.parse text with
      | error fault => simp [hparse]
      | ok root => simp [hparse]

end FileRequest

variable [Amount α]

/-- A file that cannot be read or parsed leaves the visitors as they were, and
that is its fault whatever files there are; else the pass gives a tree. -/
theorem Engine.scanRequest_cases (e : Engine σ α) (ms : List σ) (r : FileRequest) :
    (∃ err, e.scanRequest ms r = ⟨.error err, ms, []⟩ ∧
      ∀ index : UnitIndex α, r.fault? e.grammar index = some err) ∨
    ∃ tree, (e.scanRequest ms r).result = .ok tree ∧
      ∀ index : UnitIndex α, r.fault? e.grammar index =
        if index.holdsFile r.key then some (.invariant (.alreadyIndexed .file r.key)) else none := by
  rw [scanRequest_eq]
  unfold FileRequest.fault?
  cases r.content with
  | error fault => exact .inl ⟨_, rfl, fun _ => rfl⟩
  | ok text =>
      dsimp only
      rcases scan_cases e r.key text with ⟨fault, hparse, hscan⟩ | ⟨root, hparse, hscan⟩
      · rw [hparse]
        exact .inl ⟨_, hscan ms, fun _ => rfl⟩
      · obtain ⟨tree, s, -, hend⟩ := hscan ms
        rw [hparse, hend]
        exact .inr ⟨tree, rfl, fun _ => rfl⟩

namespace Scanner

/-- The scan of a file fails with its fault, or there is none and the file is
taken in.  A scan that fails leaves all but the states of the visitors, and
these too unless the key was taken. -/
theorem scanOne_fails_or_takes (sc : Scanner σ α) (r : FileRequest) :
    (∃ err ms, r.fault? sc.engine.grammar sc.index = some err ∧
      (sc.scanOne r).result = .error err ∧ (sc.scanOne r).scanner = { sc with memories := ms } ∧
      sc.engine.Leads sc.memories ms ∧
      (err ≠ .invariant (.alreadyIndexed .file r.key) → ms = sc.memories)) ∨
    (r.fault? sc.engine.grammar sc.index = none ∧ ∃ id, (sc.scanOne r).result = .ok id) := by
  rcases sc.engine.scanRequest_cases sc.memories r with ⟨err, hscan, hfault⟩ |
    ⟨tree, hscan, hfault⟩
  · have hone : sc.scanOne r = ⟨.error err, sc, []⟩ := by
      rw [scanOne_eq, hscan]
      rfl
    rw [hone]
    exact .inl ⟨err, sc.memories, hfault sc.index, rfl, rfl, .refl, fun _ => rfl⟩
  · have hleads := (Engine.Leads.refl : sc.engine.Leads sc.memories sc.memories).scanRequest r
    rw [hfault]
    rcases sc.scanOne_cases r with ⟨err, herr, -⟩ | ⟨_, -, htaken, hone⟩ |
      ⟨_, id, index, -, hfree, -, hone⟩
    · rw [hscan] at herr
      cases herr
    · rw [hone, if_pos htaken]
      exact .inl ⟨_, _, rfl, rfl, rfl, hleads, fun hne => absurd rfl hne⟩
    · rw [hone, hfree]
      exact .inr ⟨rfl, id, rfl⟩

/-- A file whose scan has failed might as well not have been asked for.  The
scan fails just where the file cannot be read, its text does not parse or a
file of its key is there.  It leaves the index as it was; any later requests
are answered as if it had not been made; and so is the index after them,
where the visitors keep nothing but their setup from file to file, or where
the scan did not come to the index. -/
theorem scanOne_failed {config : ScannerConfig σ α} {grammar : Grammar} {fresh : Scanner σ α}
    {events : List (Event α)} (hnew : new config grammar = .ok (fresh, events))
    (history : List Request) (r : FileRequest) :
    let sc := fresh.after history
    ((∃ err, (sc.scanOne r).result = .error err) ↔
      (∃ fault, r.content = .error fault) ∨
      (∃ text fault, r.content = .ok text ∧ grammar.parse text = .error fault) ∨
      ∃ u ∈ sc.index.children projectId, u.key = r.key) ∧
    ∀ err, (sc.scanOne r).result = .error err →
      (sc.scanOne r).scanner.index = sc.index ∧
      (∀ later, (sc.scanOne r).scanner.replies later = sc.replies later) ∧
      (∀ setup : Visitor σ α → σ → κ, (∀ v ∈ config.visitors, v.Resets (setup v)) →
        ∀ later, ((sc.scanOne r).scanner.after later).index = (sc.after later).index) ∧
      (err ≠ .invariant (.alreadyIndexed .file r.key) → (sc.scanOne r).scanner = sc) := by
  intro sc
  obtain ⟨registry, -, hfresh⟩ := new_eq_ok hnew
  have hengine : sc.engine = Engine.engineOf config grammar registry := by
    rw [(steps_after fresh history).engine_eq, hfresh]
  have hgrammar : sc.engine.grammar = grammar := by rw [hengine]; rfl
  have hvisitors : sc.engine.visitors = config.visitors := by rw [hengine]; rfl
  have hrepresents := represents_after hnew history
  rw [← FileRequest.fault?_eq_some_iff, ← hgrammar, ← hvisitors]
  rcases sc.scanOne_fails_or_takes r with ⟨err, ms, hfault, herr, hnext, hleads, hkept⟩ |
    ⟨hfault, id, hok⟩
  · refine ⟨⟨fun _ => ⟨err, hfault⟩, fun _ => ⟨err, herr⟩⟩, ?_⟩
    intro err' herr'
    obtain rfl := Except.error.inj (herr.symm.trans herr')
    rw [hnext]
    refine ⟨rfl, ?_, ?_, ?_⟩
    · exact replies_of_memories hrepresents ms
    · intro setup hreset later
      exact index_after_of_memories hreset (hleads.sameSetup hreset) later
    · intro hne
      rw [hkept hne]
  · refine ⟨⟨?_, ?_⟩, ?_⟩
    · rintro ⟨err, herr⟩
      rw [hok] at herr
      cases herr
    · rintro ⟨err, herr⟩
      rw [hfault] at herr
      cases herr
    · intro err herr
      rw [hok] at herr
      cases herr

theorem scanOne_failed_headed :
    ∃ fresh events, new withHeader headed = .ok (fresh, events) ∧
      (∀ v ∈ withHeader.visitors, v.Resets fun _ => ()) ∧
      let sc := fresh.after [.file (.text "a" "x"), .file (.text "b" "?")]
      let failed := sc.scanOne (.text "a" "x")
      let later : List Request := [.file (.text "c" "x"), .file (.text "c" "x")]
      failed.result = .error (.invariant (.alreadyIndexed .file "a")) ∧
      failed.scanner.index = sc.index ∧
      failed.scanner.replies later =
        [.id (.ok 2), .id (.error (.invariant (.alreadyIndexed .file "c")))] ∧
      (failed.scanner.after later).index = (sc.after later).index := by
  have hnew : new withHeader headed = .ok (_, _) := rfl
  have hreset : ∀ v ∈ withHeader.visitors, v.Resets fun _ => () := by
    intro v hv
    exact (builtIn_withHeader v hv).resets
  obtain ⟨-, hfailed⟩ := scanOne_failed (κ := Unit) hnew
    [.file (.text "a" "x"), .file (.text "b" "?")] (.text "a" "x")
  obtain ⟨hindex, hreplies, hafter, -⟩ :=
    hfailed (.invariant (.alreadyIndexed .file "a")) (by decide +kernel)
  refine ⟨_, _, hnew, hreset, by decide +kernel, hindex, ?_, hafter _ hreset _⟩
  rw [hreplies]
  decide +kernel

end Scanner
end SourceMetrics
