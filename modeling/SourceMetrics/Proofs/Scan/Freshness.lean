/-
# What a scan owes to the files before it

The visitors of a scanner keep their states from file to file.  When all of
them reset (`Visitor.Resets`), the scan of a file comes to the same whatever
files were scanned before: states that agree in the setup of every visitor
give the same tree and the same events (`scanPath_eq`), and after a scan the
setup is what it was (`sameSetup_scanPath`).

The proof follows two passes over one file side by side.  They do the same
acts, those of the schedule of the file.  `Engine.Alike` is the link between
their states: all is equal but the states of visitors that have not begun
the file.  An act does the same to both, as long as the visitor it calls
begins the file or has begun it (`performAll_alike`); the first acts of the
schedule call `visitFile` of every visitor, which closes the gap
(`schedule_alike`).
-/
import SourceMetrics.Proofs.Visitor.Reset
import SourceMetrics.Scan.Scanner

namespace SourceMetrics
namespace Engine

variable {σ α κ : Type}

/-! ## The setup of the visitors -/

/-- The states in two lists agree in the setup of each visitor. -/
def SameSetup (e : Engine σ α) (setup : Visitor σ α → σ → κ) (ms ms' : List σ) : Prop :=
  ∀ (i : Nat) (v : Visitor σ α), e.visitors[i]? = some v →
    ms[i]?.map (setup v) = ms'[i]?.map (setup v)

section
variable {e : Engine σ α} {setup : Visitor σ α → σ → κ} {ms ms' ms'' : List σ}

theorem SameSetup.refl (ms : List σ) : e.SameSetup setup ms ms := fun _ _ _ => rfl

theorem SameSetup.symm (h : e.SameSetup setup ms ms') : e.SameSetup setup ms' ms :=
  fun i v hv => (h i v hv).symm

theorem SameSetup.trans (h : e.SameSetup setup ms ms') (h' : e.SameSetup setup ms' ms'') :
    e.SameSetup setup ms ms'' :=
  fun i v hv => (h i v hv).trans (h' i v hv)

/-- A state with the same setup stands in the same place. -/
theorem SameSetup.exists_memory (h : e.SameSetup setup ms ms') {i : Nat} {v : Visitor σ α}
    {memory : σ} (hv : e.visitors[i]? = some v) (hm : ms[i]? = some memory) :
    ∃ memory', ms'[i]? = some memory' ∧ setup v memory = setup v memory' := by
  have hi := h i v hv
  rw [hm, Option.map_some] at hi
  obtain ⟨memory', hm', heq⟩ := Option.map_eq_some_iff.mp hi.symm
  exact ⟨memory', hm', heq.symm⟩

theorem SameSetup.eq_none (h : e.SameSetup setup ms ms') {i : Nat} {v : Visitor σ α}
    (hv : e.visitors[i]? = some v) (hm : ms[i]? = none) : ms'[i]? = none := by
  have hi := h i v hv
  rw [hm, Option.map_none] at hi
  exact Option.map_eq_none_iff.mp hi.symm

/-- One state is replaced by one of the same setup. -/
theorem SameSetup.set (h : e.SameSetup setup ms ms') {i : Nat} {v : Visitor σ α}
    {memory memory' : σ} (hv : e.visitors[i]? = some v) (hm : ms'[i]? = some memory)
    (hsetup : setup v memory' = setup v memory) : e.SameSetup setup ms (ms'.set i memory') := by
  intro j w hw
  rw [h j w hw]
  by_cases hij : i = j
  · subst hij
    obtain rfl := Option.some.inj (hv.symm.trans hw)
    rw [List.getElem?_set_self', hm]
    exact congrArg some hsetup.symm
  · rw [List.getElem?_set_ne hij]

/-- The states of one visitor are replaced by states with one setup. -/
theorem SameSetup.set_both (h : e.SameSetup setup ms ms') {i : Nat} {v : Visitor σ α}
    {memory memory' next next' : σ} (hv : e.visitors[i]? = some v) (hm : ms[i]? = some memory)
    (hm' : ms'[i]? = some memory') (hsetup : setup v next = setup v next') :
    e.SameSetup setup (ms.set i next) (ms'.set i next') := by
  intro j w hw
  by_cases hij : i = j
  · subst hij
    obtain rfl := Option.some.inj (hv.symm.trans hw)
    rw [List.getElem?_set_self', List.getElem?_set_self', hm, hm']
    exact congrArg some hsetup
  · rw [List.getElem?_set_ne hij, List.getElem?_set_ne hij]
    exact h j w hw

/-- Copies of the visitors have the setup of the originals. -/
theorem sameSetup_forkMemories (hreset : ∀ v ∈ e.visitors, v.Resets (setup v)) (ms : List σ) :
    e.SameSetup setup ms (e.forkMemories ms) := by
  intro i v hv
  rw [forkMemories, List.getElem?_zipWith, hv]
  cases ms[i]? with
  | none => rfl
  | some memory => exact congrArg some ((hreset v (List.mem_of_getElem? hv)).fork memory).symm

end

/-! ## Two passes side by side -/

/-- Two states of a pass differ at most in the states of visitors that have
not begun the file. -/
structure Alike (e : Engine σ α) (setup : Visitor σ α → σ → κ) (begun : Nat → Prop)
    (s s' : ScanState σ α) : Prop where
  units : s.units = s'.units
  noSonarLines : s.noSonarLines = s'.noSonarLines
  events : s.events = s'.events
  setup : e.SameSetup setup s.memories s'.memories
  begun : ∀ (i : Nat) (v : Visitor σ α), begun i → e.visitors[i]? = some v →
    s.memories[i]? = s'.memories[i]?

section
variable {e : Engine σ α} {setup : Visitor σ α → σ → κ} {begun : Nat → Prop}
  {s s' t : ScanState σ α} {file : String}

theorem Alike.mono (h : e.Alike setup begun s s') {begun' : Nat → Prop}
    (hle : ∀ i v, e.visitors[i]? = some v → begun' i → begun i) : e.Alike setup begun' s s' :=
  { h with begun := fun i v hi hv => h.begun i v (hle i v hv hi) hv }

theorem Alike.within (h : e.Alike setup begun s s') : s.within = s'.within := by
  rw [ScanState.within, h.units]
  rfl

/-- A visitor gives alike states the same answer when it begins a file, and
when it has begun it. -/
theorem Alike.answer_eq (hreset : ∀ v ∈ e.visitors, v.Resets (setup v))
    (h : e.Alike setup begun s s') {hook : Hook} {position : Nat} (node : Node)
    {v : Visitor σ α} {memory memory' : σ} (hcall : hook = .file ∨ begun position)
    (hv : e.visitors[position]? = some v) (hm : s.memories[position]? = some memory)
    (hm' : s'.memories[position]? = some memory') (hsetup : setup v memory = setup v memory')
    (view : UnitView α) :
    (hook.question node : Question σ α) v memory view = hook.question node v memory' view := by
  rcases hcall with rfl | hbegun
  · exact (hreset v (List.mem_of_getElem? hv)).forgets node memory memory' view hsetup
  · have heq := h.begun position v hbegun hv
    rw [hm, hm'] at heq
    rw [Option.some.inj heq]

variable [Amount α]

/-- A call does the same to alike states, and its visitor has begun the file
from then on. -/
theorem Alike.answered (hreset : ∀ v ∈ e.visitors, v.Resets (setup v))
    (h : e.Alike setup begun s s') {hook : Hook} {position : Nat} (node : Node)
    {v : Visitor σ α} {memory memory' : σ} (hcall : hook = .file ∨ begun position)
    (hv : e.visitors[position]? = some v) (hm : s.memories[position]? = some memory)
    (hm' : s'.memories[position]? = some memory') (hsetup : setup v memory = setup v memory')
    (u : OpenUnit α) (outer : List (OpenUnit α)) :
    e.Alike setup (fun i => begun i ∨ i = position)
      (e.answered file (hook.question node) s u outer position v memory)
      (e.answered file (hook.question node) s' u outer position v memory') := by
  have hcontext : e.contextOf file s u position = e.contextOf file s' u position := by
    simp only [contextOf, h.noSonarLines, h.events]
  have hanswer := h.answer_eq hreset node hcall hv hm hm' hsetup
    (e.contextOf file s' u position).view
  simp only [Engine.answered, hcontext, hanswer]
  refine ⟨rfl, rfl, rfl, h.setup.set_both hv hm hm' rfl, ?_⟩
  intro i w hi hw
  show (s.memories.set position _)[i]? = (s'.memories.set position _)[i]?
  by_cases hposition : position = i
  · subst hposition
    rw [List.getElem?_set_self', List.getElem?_set_self', hm, hm']
    rfl
  · rw [List.getElem?_set_ne hposition, List.getElem?_set_ne hposition]
    exact h.begun i w (hi.resolve_right fun heq => hposition heq.symm) hw

/-- An act does the same to alike states, as long as the visitor it calls
begins the file or has begun it. -/
theorem perform_alike (hreset : ∀ v ∈ e.visitors, v.Resets (setup v))
    (h : e.Alike setup begun s s') {a : Act}
    (hcall : ∀ hook position node within, a = .calling hook position node within →
      hook = .file ∨ begun position)
    (ht : e.Performed file s a t) :
    ∃ t', e.perform file s' a = some t' ∧
      e.Alike setup (fun i => begun i ∨ a.position? = some i) t t' := by
  have hunits := h.units
  cases ht with
  | @opening unit parent outer hu =>
      rw [hu] at hunits
      refine ⟨s'.opened unit parent.key, ?_, ?_⟩
      · simp only [perform, ← hunits]
      · refine ⟨?_, h.noSonarLines, ?_, h.setup, ?_⟩
        · exact congrArg (OpenUnit.new unit.kind unit.key unit.startLine :: ·) h.units
        · exact congrArg (Event.openingUnit unit.kind unit.key parent.key :: ·) h.events
        · exact fun i v hi hv => h.begun i v (hi.resolve_right fun heq => by cases heq) hv
  | @answered hook position node u outer v memory hu hv hm =>
      rw [hu] at hunits
      obtain ⟨memory', hm', hsetup⟩ := h.setup.exists_memory hv hm
      refine ⟨e.answered file (hook.question node) s' u outer position v memory', ?_, ?_⟩
      · rw [perform, if_pos h.within.symm, call_answered e file hunits.symm hv hm']
        rfl
      · refine (h.answered hreset node (hcall _ _ _ _ rfl) hv hm hm' hsetup u outer).mono ?_
        exact fun i _ _ hi => hi.imp_right fun heq => (Option.some.inj heq).symm
  | @unanswered hook position node hs hnone =>
      have hs' : s'.units ≠ [] := h.units ▸ hs
      have hnone' : e.visitors[position]? = none ∨ s'.memories[position]? = none := by
        cases hv : e.visitors[position]? with
        | none => exact .inl rfl
        | some v =>
            refine .inr (h.setup.eq_none hv (hnone.resolve_left ?_))
            rw [hv]
            exact Option.some_ne_none v
      refine ⟨s', ?_, ⟨h.units, h.noSonarLines, h.events, h.setup, ?_⟩⟩
      · rw [perform, if_pos h.within.symm, call_unanswered e file hs' hnone']
        rfl
      · rintro i v (hi | heq) hv
        · exact h.begun i v hi hv
        · obtain rfl := Option.some.inj heq
          have hm := hnone.resolve_left (by rw [hv]; exact Option.some_ne_none v)
          have hm' := hnone'.resolve_left (by rw [hv]; exact Option.some_ne_none v)
          rw [hm, hm']
  | @closing u parent outer hu =>
      rw [hu] at hunits
      refine ⟨{ s' with units := parent.addChild e.registry (u.finish e.registry) :: outer },
        ?_, ?_⟩
      · simp only [perform, closeUnit, ← hunits]
        rfl
      · refine ⟨rfl, h.noSonarLines, h.events, h.setup, ?_⟩
        exact fun i v hi hv => h.begun i v (hi.resolve_right fun heq => by cases heq) hv

/-- Acts do the same to alike states, as long as every call begins the file
for its visitor, or its visitor has begun the file. -/
theorem performAll_alike (hreset : ∀ v ∈ e.visitors, v.Resets (setup v)) {acts : List Act}
    (h : e.Alike setup begun s s')
    (hcall : ∀ hook position node within, .calling hook position node within ∈ acts →
      hook = .file ∨ begun position)
    (ht : e.performAll file acts s = some t) :
    ∃ t', e.performAll file acts s' = some t' ∧
      e.Alike setup (fun i => begun i ∨ ∃ a ∈ acts, a.position? = some i) t t' := by
  induction acts generalizing s s' begun with
  | nil =>
      cases ht
      refine ⟨s', rfl, h.mono ?_⟩
      rintro i v - (hi | ⟨a, ha, -⟩)
      · exact hi
      · cases ha
  | cons a acts ih =>
      obtain ⟨r, hr, hrest⟩ := Option.bind_eq_some_iff.mp ht
      obtain ⟨r', hr', hstep⟩ := perform_alike hreset h
        (fun hook position node within ha =>
          hcall hook position node within (ha ▸ List.mem_cons_self))
        (performed_of_perform e file hr)
      obtain ⟨t', ht', hlast⟩ := ih hstep
        (fun hook position node within hmem =>
          (hcall hook position node within (List.mem_cons_of_mem a hmem)).imp_right .inl) hrest
      refine ⟨t', ?_, hlast.mono ?_⟩
      · rw [performAll, hr']
        exact ht'
      · rintro i v - (hi | ⟨b, hb, heq⟩)
        · exact .inl (.inl hi)
        · rcases List.mem_cons.mp hb with rfl | hb
          · exact .inl (.inr heq)
          · exact .inr ⟨b, hb, heq⟩

/-! ## A whole file -/

/-- The first acts of a schedule begin the file for every visitor, so that
the whole schedule does the same whatever the visitors had in mind. -/
theorem schedule_alike (hreset : ∀ v ∈ e.visitors, v.Resets (setup v)) {ms ms' : List σ}
    (hms : e.SameSetup setup ms ms') {root : Node} {events : List (Event α)}
    (ht : e.performAll file (e.schedule file root) (e.start file root ms events) = some t) :
    ∃ t', e.performAll file (e.schedule file root) (e.start file root ms' events) = some t' ∧
      e.Alike setup (fun _ => True) t t' := by
  have hstart : e.Alike setup (fun _ => False) (e.start file root ms events)
      (e.start file root ms' events) :=
    ⟨rfl, rfl, rfl, hms, fun _ _ hi => hi.elim⟩
  rw [schedule, List.append_assoc, performAll_append] at ht
  obtain ⟨r, hr, hrest⟩ := Option.bind_eq_some_iff.mp ht
  obtain ⟨r', hr', hbegun⟩ := performAll_alike hreset hstart
    (fun hook position node within hmem => by
      obtain ⟨_, _, heq⟩ := List.mem_map.mp hmem
      cases heq
      exact .inl rfl) hr
  have hall : e.Alike setup (fun _ => True) r r' := by
    refine hbegun.mono fun i v hv _ => .inr ⟨_, List.mem_map.mpr ⟨i, ?_, rfl⟩, rfl⟩
    exact List.mem_range.mpr (List.getElem?_eq_some_iff.mp hv).1
  obtain ⟨t', ht', hlast⟩ := performAll_alike hreset hall (fun _ _ _ _ _ => .inr trivial) hrest
  refine ⟨t', ?_, hlast.mono fun _ _ _ _ => .inl trivial⟩
  rw [schedule, List.append_assoc, performAll_append, hr']
  exact ht'

/-- The tree of a file and the events of its scan rest on the setup of the
visitors alone. -/
theorem traverse_alike (hreset : ∀ v ∈ e.visitors, v.Resets (setup v)) {ms ms' : List σ}
    (hms : e.SameSetup setup ms ms') (file : String) (root : Node) (events : List (Event α)) :
    ∃ tree t t', e.traverse file root ms events = .ok (tree, t) ∧
      e.traverse file root ms' events = .ok (tree, t') ∧ t.events = t'.events := by
  obtain ⟨t, u, hperform, hu, htraverse, -⟩ := traverse_does e file root ms events
  obtain ⟨t', u', hperform', hu', htraverse', -⟩ := traverse_does e file root ms' events
  obtain ⟨r, hr, halike⟩ := schedule_alike hreset hms hperform
  obtain rfl : t' = r := Option.some.inj (hperform'.symm.trans hr)
  have huu : [u] = [u'] := hu.symm.trans (halike.units.trans hu')
  obtain rfl : u = u' := (List.cons.inj huu).1
  have htree : e.treeOf t' u = e.treeOf t u := by
    rw [treeOf, treeOf, halike.noSonarLines]
  exact ⟨e.treeOf t u, t, t', htraverse, htree ▸ htraverse', halike.events⟩

/-- A scan of a file leaves the setup of the visitors alone. -/
theorem sameSetup_traverse (hreset : ∀ v ∈ e.visitors, v.Resets (setup v)) {ms : List σ}
    {root : Node} {events : List (Event α)} {tree : UnitTree α}
    (h : e.traverse file root ms events = .ok (tree, t)) : e.SameSetup setup ms t.memories := by
  obtain ⟨r, u, hperform, -, htraverse, -⟩ := traverse_does e file root ms events
  obtain ⟨-, rfl⟩ := Prod.mk.inj (Except.ok.inj (htraverse.symm.trans h))
  refine performAll_preserves e file (P := fun s => e.SameSetup setup ms s.memories) ?_ hperform
    (.refl ms)
  intro s a s' hs hstep
  cases hstep with
  | opening _ => exact hs
  | @answered hook _ node _ _ v memory _ hv hm =>
      exact hs.set hv hm ((hreset v (List.mem_of_getElem? hv)).keeps hook node memory _)
  | unanswered _ _ => exact hs
  | closing _ => exact hs

end

/-! ## A text, and the file at a path -/

section
variable [Amount α] {e : Engine σ α} {setup : Visitor σ α → σ → κ} {ms ms' : List σ}

/-- A scan of a text fails where the text does not parse, and else comes to
the tree of a pass; what the visitors have in mind has no say in which. -/
theorem scan_cases (e : Engine σ α) (key text : String) :
    (∃ fault, e.grammar.parse text = .error fault ∧
      ∀ ms, e.scan ms key text = ⟨.error (.parse key fault), ms, []⟩) ∨
    ∃ root, e.grammar.parse text = .ok root ∧ ∀ ms, ∃ tree s,
      e.traverse key root ms [.parsed key root.nodeCount] = .ok (tree, s) ∧
      e.scan ms key text =
        ⟨.ok tree, s.memories, (Event.scanned key tree.unitCount :: s.events).reverse⟩ := by
  cases hparse : e.grammar.parse text with
  | error fault =>
      refine .inl ⟨fault, rfl, fun ms => ?_⟩
      simp only [scan, hparse]
  | ok root =>
      refine .inr ⟨root, rfl, fun ms => ?_⟩
      obtain ⟨s, u, -, -, htraverse, -⟩ := traverse_does e key root ms [.parsed key root.nodeCount]
      refine ⟨e.treeOf s u, s, htraverse, ?_⟩
      simp only [scan, hparse, htraverse]

/-- The tree of a scan is that of a pass over the syntax tree of the text. -/
theorem exists_traverse_of_scan {key text : String} {tree : UnitTree α}
    (h : (e.scan ms key text).result = .ok tree) :
    ∃ root s, e.grammar.parse text = .ok root ∧
      e.traverse key root ms [.parsed key root.nodeCount] = .ok (tree, s) := by
  rcases scan_cases e key text with ⟨fault, -, hscan⟩ | ⟨root, hparse, hscan⟩
  · rw [hscan ms] at h
    cases h
  · obtain ⟨tree', s, htraverse, heq⟩ := hscan ms
    rw [heq] at h
    obtain rfl := Except.ok.inj h
    exact ⟨root, s, hparse, htraverse⟩

/-- The tree of a scan has the units that the extractors open in the syntax
tree of the text; what the visitors have in mind has no say in them. -/
theorem shape_of_scan {key text : String} {tree : UnitTree α}
    (h : (e.scan ms key text).result = .ok tree) :
    ∃ root, e.grammar.parse text = .ok root ∧
      tree.shape = ⟨fileSpec key root, (e.marking key root).contract⟩ := by
  obtain ⟨root, s, hparse, htraverse⟩ := exists_traverse_of_scan h
  obtain ⟨s', u, -, -, htraverse', hshape⟩ :=
    traverse_does e key root ms [.parsed key root.nodeCount]
  obtain ⟨rfl, -⟩ := Prod.mk.inj (Except.ok.inj (htraverse'.symm.trans htraverse))
  exact ⟨root, hparse, hshape⟩

/-- The tree of a scan is a file of the key it was scanned under. -/
theorem file_of_scan {key text : String} {tree : UnitTree α}
    (h : (e.scan ms key text).result = .ok tree) : tree.kind = .file ∧ tree.key = key := by
  obtain ⟨root, -, hshape⟩ := shape_of_scan h
  have hspec : tree.spec = fileSpec key root := by
    rw [← UnitTree.shape_unit, hshape]
  exact ⟨congrArg UnitSpec.kind hspec, congrArg UnitSpec.key hspec⟩

/-- The scan of a text comes to the same from states with the same setup. -/
theorem scan_eq (hreset : ∀ v ∈ e.visitors, v.Resets (setup v)) (hms : e.SameSetup setup ms ms')
    (key text : String) :
    (e.scan ms key text).result = (e.scan ms' key text).result ∧
      (e.scan ms key text).events = (e.scan ms' key text).events := by
  rcases scan_cases e key text with ⟨fault, -, hscan⟩ | ⟨root, -, hscan⟩
  · rw [hscan ms, hscan ms']
    exact ⟨rfl, rfl⟩
  · obtain ⟨tree, t, ht, heq⟩ := hscan ms
    obtain ⟨tree', t', ht', heq'⟩ := hscan ms'
    obtain ⟨r, s, s', hs, hs', hevents⟩ := traverse_alike hreset hms key root _
    obtain ⟨rfl, rfl⟩ := Prod.mk.inj (Except.ok.inj (ht.symm.trans hs))
    obtain ⟨rfl, rfl⟩ := Prod.mk.inj (Except.ok.inj (ht'.symm.trans hs'))
    rw [heq, heq', hevents]
    exact ⟨rfl, rfl⟩

/-- After the scan of a text the setup is what it was. -/
theorem sameSetup_scan (hreset : ∀ v ∈ e.visitors, v.Resets (setup v)) (ms : List σ)
    (key text : String) : e.SameSetup setup ms (e.scan ms key text).memories := by
  rcases scan_cases e key text with ⟨fault, -, hscan⟩ | ⟨root, -, hscan⟩
  · rw [hscan ms]
    exact .refl ms
  · obtain ⟨tree, t, ht, heq⟩ := hscan ms
    rw [heq]
    exact sameSetup_traverse hreset ht

variable (read : Reader) (path : String)

/-- The scan of the file at a path comes to the same from states with the
same setup. -/
theorem scanPath_eq (hreset : ∀ v ∈ e.visitors, v.Resets (setup v))
    (hms : e.SameSetup setup ms ms') :
    (e.scanPath read ms path).result = (e.scanPath read ms' path).result ∧
      (e.scanPath read ms path).events = (e.scanPath read ms' path).events := by
  unfold scanPath
  cases read path with
  | error fault => exact ⟨rfl, rfl⟩
  | ok text => exact scan_eq hreset hms path text

/-- After the scan of the file at a path the setup is what it was. -/
theorem sameSetup_scanPath (hreset : ∀ v ∈ e.visitors, v.Resets (setup v)) (ms : List σ) :
    e.SameSetup setup ms (e.scanPath read ms path).memories := by
  unfold scanPath
  cases read path with
  | error fault => exact .refl ms
  | ok text => exact sameSetup_scan hreset ms path text

/-- A scan fails only where the file cannot be read or its text not parsed. -/
theorem isFileScoped_of_scanPath {err : ScanError}
    (h : (e.scanPath read ms path).result = .error err) : err.isFileScoped := by
  unfold scanPath at h
  cases hread : read path with
  | error fault =>
      rw [hread] at h
      cases h
      rfl
  | ok text =>
      simp only [hread] at h
      rcases scan_cases e path text with ⟨fault, -, hscan⟩ | ⟨root, -, hscan⟩
      · rw [hscan ms] at h
        cases h
        rfl
      · obtain ⟨tree, t, -, heq⟩ := hscan ms
        rw [heq] at h
        cases h

end

end Engine
end SourceMetrics
