/-
# Sessions over many files on several workers

Each worker scans its share of the files with visitors of its own; the
trees are then taken into the index one by one in the order of the paths,
so that the index does not tell how the work was shared out.  How it is
shared out, and when a worker finds the session cancelled, is up to the
scheduler: a `Distribution` says it.
-/
import SourceMetrics.Scan.Session

namespace SourceMetrics

/-- How files are shared out over workers, by their positions in the list
of paths. -/
structure Distribution where
  /-- For each worker the positions of its files, in the order it takes
  them. -/
  workers : List (List Nat)
  /-- Whether the session turns out cancelled when the file at a position is
  due. -/
  misses : Nat → Bool

namespace Distribution

/-- One worker takes everything and is not interrupted. -/
def single (count : Nat) : Distribution := ⟨[List.range count], fun _ => false⟩

/-- Every file below a count is given to exactly one worker, once. -/
def Covers (d : Distribution) (count : Nat) : Prop :=
  d.workers.flatten.Perm (List.range count)

end Distribution

/-- What became of the file at a position. -/
structure Finding (α : Type) where
  position : Nat
  path : String
  result : Except ScanError (UnitTree α)
  events : List (Event α)

namespace Scanner

variable {σ α : Type} [Amount α]

/-- The work of one worker, from the states its visitors have.  A file that
is due after the session was cancelled is passed over. -/
def work (e : Engine σ α) (read : Reader) (paths : List String) (misses : Nat → Bool)
    (memories : List σ) : List Nat → List (Finding α)
  | [] => []
  | position :: rest =>
    match paths[position]? with
    | none => work e read paths misses memories rest
    | some path =>
      if misses position then work e read paths misses memories rest
      else
        let scan := e.scanPath read memories path
        ⟨position, path, scan.result, scan.events⟩ ::
          work e read paths misses scan.memories rest

/-- Takes the findings into the index in the order of the paths, the first
of which has the given position. -/
def collect (findings : List (Finding α)) (sc : Scanner σ α) (position : Nat)
    (report : ScanReport) : List String → Session σ α
  | [] => ⟨.ok report, sc, [], []⟩
  | path :: rest =>
    match findings.find? (fun f => f.position = position) with
    | none => collect findings sc (position + 1) { report with cancelled := true } rest
    | some f =>
      match f.result with
      | .ok tree =>
        match sc.index.insert tree with
        | .error err => ⟨.error err, sc, [], []⟩
        | .ok (id, index) =>
          collect findings { sc with index := index } (position + 1) (report.addScanned id) rest
      | .error err =>
        match recordFailure report path err with
        | .error err => ⟨.error err, sc, [], []⟩
        | .ok (report, event) =>
          (collect findings sc (position + 1) report rest).after [event] []

/-- Scans files on several workers. -/
def scanFilesParallel (sc : Scanner σ α) (read : Reader) (d : Distribution)
    (paths : List String) : Session σ α :=
  let misses := fun position => sc.cancelled || d.misses position
  let findings := d.workers.flatMap
    (work sc.engine read paths misses (sc.engine.forkMemories sc.memories))
  (collect findings sc 0 .empty paths).after
    (findings.flatMap (·.events)) (findings.map (·.path))

end Scanner
end SourceMetrics
