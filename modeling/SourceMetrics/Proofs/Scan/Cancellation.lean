/-
# Sessions that are asked to stop

A session in order looks at the request to stop before each file, and nowhere
else.  The request may be there before the session, or the listener to the
progress makes it when it hears of a file:

    asked before the session       no file is due
    asked on hearing of the nth    the first n files are due
    never asked                    all files are due

* A session does the files that are due (`due`) as a session over just these
  that nobody asks to stop would do them, failures included, and its report
  tells whether any file was left (`scanFrom_interrupts`).
* The request stays: once it was made, no later session over any files does
  anything, on one worker or on several (`idle_of_cancelled`).
-/
import SourceMetrics.Proofs.Scan.InOrder

namespace SourceMetrics

open UnitIndex FileRequest

variable {σ α : Type}

/-- The report of a session that may have left files. -/
def ScanReport.leaving (report : ScanReport) (left : Bool) : ScanReport :=
  { report with cancelled := report.cancelled || left }

namespace Scanner

/-! ## The files that are due -/

/-- The files that a session gets to, `seen` files being done. -/
def due (cancelled : Bool) (stopAfter : Option Nat) (seen : Nat) (paths : List String) :
    List String :=
  if cancelled then []
  else
    match stopAfter with
    | none => paths
    | some n => paths.take (max (n - seen) 1)

theorem due_isPrefix (cancelled : Bool) (stopAfter : Option Nat) (seen : Nat)
    (paths : List String) : due cancelled stopAfter seen paths <+: paths := by
  unfold due
  split
  · exact List.nil_prefix
  · cases stopAfter with
    | none => exact List.prefix_refl paths
    | some n => exact List.take_prefix _ paths

/-- After the first file those are due that are due once it is done. -/
theorem due_cons (stopAfter : Option Nat) (seen : Nat) (path : String) (rest : List String) :
    due false stopAfter seen (path :: rest) =
      path :: due (asksToStop stopAfter (seen + 1)) stopAfter (seen + 1) rest := by
  cases stopAfter with
  | none => rfl
  | some n =>
      by_cases hn : n ≤ seen + 1
      · have hone : max (n - seen) 1 = 1 := by omega
        simp only [due, asksToStop, hn, hone, decide_true, if_true, Bool.false_eq_true, if_false,
          List.take_succ_cons, List.take_zero]
      · have hmore : max (n - seen) 1 = max (n - (seen + 1)) 1 + 1 := by omega
        simp only [due, asksToStop, hn, hmore, decide_false, Bool.false_eq_true, if_false,
          List.take_succ_cons]

/-- Who asked to stop keeps asking. -/
theorem asksToStop_mono {stopAfter : Option Nat} {seen seen' : Nat}
    (h : asksToStop stopAfter seen = true) (hle : seen ≤ seen') :
    asksToStop stopAfter seen' = true := by
  cases stopAfter with
  | none => cases h
  | some n => exact decide_eq_true (Nat.le_trans (of_decide_eq_true h) hle)

/-- The listener asks to stop on hearing of several files when it does on
hearing of the first, or of the others. -/
theorem asksToStop_cons (stopAfter : Option Nat) (seen : Nat) (path : String)
    (others : List String) :
    asksToStop stopAfter (seen + (path :: others).length) = true ↔
      asksToStop stopAfter (seen + 1) = true ∨
        others ≠ [] ∧ asksToStop stopAfter (seen + 1 + others.length) = true := by
  rw [List.length_cons, Nat.add_comm others.length, ← Nat.add_assoc]
  constructor
  · intro hasks
    cases others with
    | nil => exact .inl hasks
    | cons other rest => exact .inr ⟨List.cons_ne_nil other rest, hasks⟩
  · rintro (hfirst | ⟨-, hasks⟩)
    · exact asksToStop_mono hfirst (Nat.le_add_right _ _)
    · exact hasks

/-! ## A session and the files that are due -/

/-- The scanner without a request to stop. -/
def resume (sc : Scanner σ α) : Scanner σ α := { sc with cancelled := false }

theorem resume_of_not_cancelled {sc : Scanner σ α} (h : sc.cancelled = false) : sc.resume = sc := by
  cases sc
  cases h
  rfl

/-- The scanner when the listener has heard of a file, the last of `seen`. -/
def heard (stopAfter : Option Nat) (seen : Nat) (sc : Scanner σ α) : Scanner σ α :=
  if asksToStop stopAfter seen then sc.cancel else sc

theorem cancelled_heard (stopAfter : Option Nat) (seen : Nat) {sc : Scanner σ α}
    (h : sc.cancelled = false) : (sc.heard stopAfter seen).cancelled = asksToStop stopAfter seen := by
  unfold heard
  cases asksToStop stopAfter seen with
  | true => rfl
  | false => exact h

theorem resume_heard (stopAfter : Option Nat) (seen : Nat) {sc : Scanner σ α}
    (h : sc.cancelled = false) : (sc.heard stopAfter seen).resume = sc := by
  have hresume := resume_of_not_cancelled h
  unfold heard
  split
  · exact hresume
  · exact hresume

variable [Amount α]

theorem cancelled_scanFile (sc : Scanner σ α) (read : Reader) (path : String) :
    (sc.scanFile read path).scanner.cancelled = sc.cancelled := by
  unfold scanFile takeIn
  cases (sc.engine.scanPath read sc.memories path).result with
  | error err => rfl
  | ok tree =>
      dsimp only
      cases sc.index.insert tree <;> rfl

/-- A session does its first file and ends there, or it does it and goes on,
whatever the listener has to say. -/
theorem scanFrom_cons_cases {sc : Scanner σ α} (h : sc.cancelled = false) (read : Reader)
    (report : ScanReport) (path : String) :
    let next := (sc.scanFile read path).scanner
    (∃ err events, ∀ stopAfter seen rest,
      scanFrom read stopAfter sc seen report (path :: rest) =
        ⟨.error err, next.heard stopAfter (seen + 1), events, [path]⟩) ∨
    ∃ report' events, ∀ stopAfter seen rest,
      scanFrom read stopAfter sc seen report (path :: rest) =
        (scanFrom read stopAfter (next.heard stopAfter (seen + 1)) (seen + 1) report' rest).after
          events [path] := by
  intro next
  cases hresult : (sc.scanFile read path).result with
  | ok id =>
      refine .inr ⟨report.addScanned id, (sc.scanFile read path).events, fun stopAfter seen rest => ?_⟩
      simp only [scanFrom, h, Bool.false_eq_true, if_false, hresult]
      rfl
  | error err =>
      cases hrecord : (recordFailure report path err : Except ScanError (ScanReport × Event α)) with
      | error err' =>
          refine .inl ⟨err', (sc.scanFile read path).events, fun stopAfter seen rest => ?_⟩
          simp only [scanFrom, h, Bool.false_eq_true, if_false, hresult, hrecord]
          rfl
      | ok recorded =>
          obtain ⟨report', event⟩ := recorded
          refine .inr ⟨report', (sc.scanFile read path).events ++ [event],
            fun stopAfter seen rest => ?_⟩
          simp only [scanFrom, h, Bool.false_eq_true, if_false, hresult, hrecord]
          rfl

/-- A session is another one, but for the request to stop. -/
structure Interrupts (left : Bool) (session whole : Session σ α) : Prop where
  result : session.result = whole.result.map (·.leaving left)
  scanner : session.scanner.resume = whole.scanner
  progress : session.progress = whole.progress

/-- A session goes through the files that are due like one over just these
that nobody asks to stop. -/
theorem scanFrom_interrupts (read : Reader) (stopAfter : Option Nat) (sc : Scanner σ α)
    (seen : Nat) (report : ScanReport) (paths : List String) :
    let done := due sc.cancelled stopAfter seen paths
    Interrupts (decide (done.length < paths.length)) (scanFrom read stopAfter sc seen report paths)
      (scanFrom read none sc.resume seen report done) := by
  induction paths generalizing sc seen report with
  | nil =>
      intro done
      have hdone : done = [] := List.prefix_nil.mp (due_isPrefix sc.cancelled stopAfter seen [])
      rw [hdone]
      refine ⟨?_, rfl, rfl⟩
      simp only [scanFrom, Except.map, ScanReport.leaving, List.length_nil, Nat.lt_irrefl,
        decide_false, Bool.or_false]
  | cons path rest ih =>
      intro done
      cases hcancelled : sc.cancelled with
      | true =>
          have hdone : done = [] := by
            show due sc.cancelled stopAfter seen (path :: rest) = []
            rw [hcancelled]
            rfl
          rw [hdone, scanFrom_of_cancelled hcancelled read stopAfter seen report
            (List.cons_ne_nil path rest)]
          refine ⟨?_, rfl, rfl⟩
          simp only [scanFrom, Except.map, ScanReport.leaving, List.length_nil, List.length_cons,
            Nat.zero_lt_succ, decide_true, Bool.or_true]
      | false =>
          have hkept : (sc.scanFile read path).scanner.cancelled = false :=
            (cancelled_scanFile sc read path).trans hcancelled
          have hdone : done = path :: due (asksToStop stopAfter (seen + 1)) stopAfter (seen + 1) rest := by
            show due sc.cancelled stopAfter seen (path :: rest) = _
            rw [hcancelled, due_cons]
          rw [hdone, resume_of_not_cancelled hcancelled]
          rcases scanFrom_cons_cases hcancelled read report path with
            ⟨err, events, hends⟩ | ⟨report', events, hgoes⟩
          · rw [hends, hends]
            exact ⟨rfl, resume_heard stopAfter (seen + 1) hkept, rfl⟩
          · have hrest := ih ((sc.scanFile read path).scanner.heard stopAfter (seen + 1)) (seen + 1)
              report'
            rw [cancelled_heard stopAfter (seen + 1) hkept,
              resume_heard stopAfter (seen + 1) hkept] at hrest
            rw [hgoes, hgoes, List.length_cons, List.length_cons]
            refine ⟨?_, hrest.scanner, congrArg (path :: ·) hrest.progress⟩
            simp only [Nat.add_lt_add_iff_right]
            exact hrest.result

/-- A session that nobody asks to stop does all files, unless it ends with an
error. -/
theorem progress_scanFrom {read : Reader} {sc : Scanner σ α} (h : sc.cancelled = false)
    {seen : Nat} {report report' : ScanReport} {paths : List String}
    (hresult : (scanFrom read none sc seen report paths).result = .ok report') :
    (scanFrom read none sc seen report paths).progress = paths := by
  induction paths generalizing sc seen report with
  | nil => rfl
  | cons path rest ih =>
      rcases scanFrom_cons_cases h read report path with ⟨err, events, hends⟩ | ⟨next, events, hgoes⟩
      · rw [hends] at hresult
        cases hresult
      · rw [hgoes] at hresult ⊢
        exact congrArg (path :: ·) (ih ((cancelled_scanFile sc read path).trans h) hresult)

/-- The request to stop is there when it was there before, or when the
listener made it on hearing of the last file. -/
theorem cancelled_scanFrom (read : Reader) (stopAfter : Option Nat) (sc : Scanner σ α)
    (seen : Nat) (report : ScanReport) (paths : List String) :
    let session := scanFrom read stopAfter sc seen report paths
    session.scanner.cancelled = true ↔ sc.cancelled = true ∨
      session.progress ≠ [] ∧ asksToStop stopAfter (seen + session.progress.length) = true := by
  induction paths generalizing sc seen report with
  | nil =>
      intro session
      exact ⟨.inl, fun hcancelled => hcancelled.resolve_right fun hsome => hsome.1 rfl⟩
  | cons path rest ih =>
      intro session
      cases hcancelled : sc.cancelled with
      | true =>
          have hsession : session = _ := scanFrom_of_cancelled hcancelled read stopAfter seen report
            (List.cons_ne_nil path rest)
          rw [hsession]
          exact ⟨fun _ => .inl rfl, fun _ => hcancelled⟩
      | false =>
          have hkept : (sc.scanFile read path).scanner.cancelled = false :=
            (cancelled_scanFile sc read path).trans hcancelled
          have hheard := cancelled_heard stopAfter (seen + 1) hkept
          rcases scanFrom_cons_cases hcancelled read report path with
            ⟨err, events, hends⟩ | ⟨report', events, hgoes⟩
          · have hsession : session = _ := hends stopAfter seen rest
            rw [hsession]
            simp [hheard]
          · have hsession : session = _ := hgoes stopAfter seen rest
            have hrest := ih ((sc.scanFile read path).scanner.heard stopAfter (seen + 1)) (seen + 1)
              report'
            simp only [hheard, ← asksToStop_cons stopAfter seen path] at hrest
            rw [hsession]
            exact hrest.trans ⟨fun hasks => .inr ⟨List.cons_ne_nil _ _, hasks⟩,
              fun hasks => (hasks.resolve_left Bool.false_ne_true).2⟩

/-! ## What a session did -/

/-- A session did the given files.  The listener heard of each of them, once
and in order; each is a failure of the report, or a file of the index under an
id of the report, both in the order of the files; and the index is the one
that a session over just these files leaves that nobody asks to stop. -/
structure Did (sc : Scanner σ α) (read : Reader) (done : List String) (session : Session σ α)
    (report : ScanReport) : Prop where
  heard : session.progress = done
  failures : report.failures = sc.engine.failuresOf (done.map (.path read))
  scanned : report.scanned.map (fun id => (session.scanner.index.toTree id).map (·.key)) =
    (scannedKeys sc.engine.grammar (done.map (.path read))).map some
  each : ∀ path ∈ done, (∃ failure ∈ report.failures, failure.file = path) ∨
    ∃ id ∈ report.scanned, (session.scanner.index.toTree id).map (·.key) = some path
  increasing : report.scanned.Pairwise (· < ·)
  index : session.scanner.index = (sc.resume.scanFiles read none done).scanner.index

/-- A session over files whose keys are apart does those that are due, and
its report tells whether any were left. -/
theorem scanFiles_did {sc : Scanner σ α} {t : UnitTree α} (ht : sc.index.Represents t)
    (read : Reader) (stopAfter : Option Nat) {paths : List String}
    (h : sc.Apart (paths.map (.path read))) :
    let done := due sc.cancelled stopAfter 0 paths
    let session := sc.scanFiles read stopAfter paths
    ∃ report, session.result = .ok report ∧ sc.Did read done session report ∧
      report.cancelled = decide (done.length < paths.length) := by
  intro done session
  have hfirst := h.initial ((due_isPrefix sc.cancelled stopAfter 0 paths).map (FileRequest.path read))
  have hdone : sc.resume.Apart (done.map (.path read)) := ⟨hfirst.nodup, hfirst.free⟩
  have hresumed : sc.resume.index.Represents t := ht
  obtain ⟨hresult, hindex⟩ := Prod.mk.inj (outcome_scanFrom_apart hresumed rfl hdone 0 .empty)
  have hwhole := scanFrom_interrupts read stopAfter sc 0 .empty paths
  have hsame : session.scanner.index = (sc.resume.scanFiles read none done).scanner.index :=
    congrArg (·.index) hwhole.scanner
  let trees := sc.engine.treesOf sc.memories (done.map (.path read))
  have hkeys : (UnitTree.childIds sc.index.size trees).map
      (fun id => (session.scanner.index.toTree id).map (·.key)) =
        (scannedKeys sc.engine.grammar (done.map (.path read))).map some := by
    rw [hsame.trans hindex]
    exact hdone.map_key_taken hresumed
  refine ⟨_, hwhole.result.trans (congrArg (Except.map _) hresult),
    ⟨hwhole.progress.trans (progress_scanFrom rfl hresult), rfl, hkeys, fun path hpath => ?_,
      UnitTree.pairwise_childIds _ _, hsame⟩, rfl⟩
  have hrequest : FileRequest.path read path ∈ done.map (.path read) := List.mem_map_of_mem hpath
  rcases sc.engine.mem_failuresOf_or_mem_scannedKeys hrequest with hfailed | hscanned
  · exact .inl hfailed
  · have hlisted := List.mem_map_of_mem (f := some) hscanned
    rw [← hkeys] at hlisted
    exact .inr (List.mem_map.mp hlisted)

/-! ## Later sessions -/

/-- No session over any files does anything. -/
def Idle (sc : Scanner σ α) : Prop :=
  ∀ (read : Reader) (paths : List String), paths ≠ [] →
    (∀ stopAfter, sc.scanFiles read stopAfter paths =
      ⟨.ok ⟨[], [], true⟩, sc, [.scanCancelled], []⟩) ∧
    ∀ d, sc.scanFilesParallel read d paths = ⟨.ok ⟨[], [], true⟩, sc, [], []⟩

theorem idle_of_cancelled {sc : Scanner σ α} (h : sc.cancelled = true) : sc.Idle := by
  intro read paths hpaths
  refine ⟨fun stopAfter => scanFrom_of_cancelled h read stopAfter 0 .empty hpaths, fun d => ?_⟩
  have hnone : d.workers.flatMap (work sc.engine read paths
      (fun position => sc.cancelled || d.misses position)
        (sc.engine.forkMemories sc.memories)) = [] :=
    List.flatMap_eq_nil_iff.mpr fun positions _ =>
      work_eq_nil (fun position => by rw [h, Bool.true_or]) positions
  show (collect _ sc 0 .empty paths).after _ _ = _
  rw [hnone, collect_nil]
  cases paths with
  | nil => exact absurd rfl hpaths
  | cons path rest => rfl

/-- A request to stop is never taken back. -/
theorem Steps.cancelled {sc sc' : Scanner σ α} (h : Steps sc sc') (hcancelled : sc.cancelled = true) :
    sc'.cancelled = true := by
  refine h.preserves (P := fun sc => sc.cancelled = true) ?_ hcancelled
  intro sc₁ sc₂ step hasked
  cases step with
  | scanned => exact hasked
  | taken => exact hasked
  | cancelled => rfl

/-- Whatever a scanner has been through and whenever it is asked to stop, a
session over files whose keys are apart does just the first ones, those that
are due, and its report says that it was cancelled exactly when files are
left.  Once it was asked to stop, no later session does anything, whatever the
scanner is asked for in between. -/
theorem scanFiles_interrupted {config : ScannerConfig σ α} {grammar : Grammar}
    {fresh : Scanner σ α} {events : List (Event α)} (hnew : new config grammar = .ok (fresh, events))
    (history : List Request) (read : Reader) (stopAfter : Option Nat) {paths : List String}
    (hapart : (fresh.after history).Apart (paths.map (.path read))) :
    let sc := fresh.after history
    let session := sc.scanFiles read stopAfter paths
    ∃ done left report, paths = done ++ left ∧ done = due sc.cancelled stopAfter 0 paths ∧
      session.result = .ok report ∧ sc.Did read done session report ∧
      (report.cancelled = true ↔ left ≠ []) ∧
      (session.scanner.cancelled = true ↔
        sc.cancelled = true ∨ done ≠ [] ∧ asksToStop stopAfter done.length = true) ∧
      (session.scanner.cancelled = true → ∀ later, (session.scanner.after later).Idle) := by
  intro sc session
  obtain ⟨t, ht⟩ := represents_after hnew history
  obtain ⟨left, hpaths⟩ := due_isPrefix sc.cancelled stopAfter 0 paths
  obtain ⟨report, hresult, hdid, hcancelled⟩ := scanFiles_did ht read stopAfter hapart
  have hasked := cancelled_scanFrom read stopAfter sc 0 .empty paths
  refine ⟨due sc.cancelled stopAfter 0 paths, left, report, hpaths.symm, rfl, hresult, hdid, ?_, ?_,
    fun h later => idle_of_cancelled ((steps_after session.scanner later).cancelled h)⟩
  · have hlength := congrArg List.length hpaths
    rw [List.length_append] at hlength
    rw [hcancelled, decide_eq_true_iff, ← List.length_pos_iff, ← hlength]
    exact Nat.lt_add_right_iff_pos
  · have hheard : session.progress = due sc.cancelled stopAfter 0 paths := hdid.heard
    rw [← hheard, ← Nat.zero_add session.progress.length]
    exact hasked

/-- The listener asks to stop on hearing of the second of three files, one
that cannot be scanned. -/
theorem scanFiles_interrupted_headed :
    ∃ fresh events, new withHeader headed = .ok (fresh, events) ∧
      let sc := fresh.after [.file (.text "z" "x")]
      let read : Reader := fun path => .ok (if path = "b" then "?" else "x")
      let session := sc.scanFiles read (some 2) ["a", "b", "c"]
      sc.Apart (["a", "b", "c"].map (.path read)) ∧
      (∃ report, session.result = .ok report ∧ sc.Did read ["a", "b"] session report ∧
        report.cancelled = true) ∧
      ∀ later, (session.scanner.after later).Idle := by
  have hnew : new withHeader headed = .ok (_, _) := rfl
  refine ⟨_, _, hnew, ?_⟩
  intro sc read session
  have hapart : sc.Apart (["a", "b", "c"].map (.path read)) :=
    ⟨by decide +kernel, by decide +kernel⟩
  obtain ⟨done, left, report, hpaths, hdue, hresult, hdid, hleft, hasked, hidle⟩ :=
    scanFiles_interrupted hnew [.file (.text "z" "x")] read (some 2) hapart
  have hcancelled : sc.cancelled = false := by decide +kernel
  have hdone : done = ["a", "b"] := by
    rw [hdue]
    show due sc.cancelled (some 2) 0 ["a", "b", "c"] = ["a", "b"]
    rw [hcancelled]
    rfl
  subst hdone
  refine ⟨hapart, ⟨report, hresult, hdid, hleft.mpr ?_⟩, hidle (hasked.mpr (.inr ⟨by decide, rfl⟩))⟩
  rintro rfl
  cases hpaths

end Scanner
end SourceMetrics
