/-
# The files that are collected

A directory gives its names in an order of its own, and `collectPaths` lists
the files below it in the order of paths.  What the listing rests on is that
a directory tree is proper: in each directory the names are names, and no two
are alike (`Entry.IsProper`).

* The path of a file tells by its components which way leads to it, so no two
  files below a directory have the same (`nodup_components_filesBelow`).
* Sorted by these, each path comes strictly before the next one
  (`collectPaths_sorted`), and no path is collected twice.
-/
import Mathlib.Data.List.Nodup
import SourceMetrics.Files.FileSystem
import SourceMetrics.Proofs.Files.Path

namespace SourceMetrics

open SourceMetrics.Path (components join IsName)

/-! ## Proper directory trees -/

/-- In each directory the names are names, and no two of them are alike. -/
inductive Entry.IsProper : Entry → Prop
  | file (bytes : ByteArray) : IsProper (.file bytes)
  | link (target : String) : IsProper (.link target)
  | directory {names : List (String × Entry)} (hnodup : (names.map Prod.fst).Nodup)
      (hname : ∀ entry ∈ names, IsName entry.1) (hproper : ∀ entry ∈ names, IsProper entry.2) :
      IsProper (.directory names)

namespace Entry

theorem mem_of_lookup {name : String} {e : Entry} {names : List (String × Entry)}
    (h : names.lookup name = some e) : (name, e) ∈ names := by
  obtain ⟨before, after, rfl, -⟩ := List.lookup_eq_some_iff.mp h
  exact List.mem_append_right before List.mem_cons_self

/-- What stands in a proper directory tree is proper. -/
theorem IsProper.at? {e below : Entry} (h : e.IsProper) {chain : List String}
    (hbelow : e.at? chain = some below) : below.IsProper := by
  induction chain generalizing e with
  | nil =>
      obtain rfl := Option.some.inj hbelow
      exact h
  | cons name rest ih =>
      obtain ⟨next, hnext, hrest⟩ := Option.bind_eq_some_iff.mp hbelow
      cases h with
      | file bytes => cases hnext
      | link target => cases hnext
      | directory hnodup hname hproper => exact ih (hproper _ (mem_of_lookup hnext)) hrest

end Entry

namespace FileSystem

/-- What a path leads to stands at some place. -/
theorem exists_place_of_entry {fs : FileSystem} {path : String} {e : Entry}
    (h : fs.entry path = .ok e) :
    ∃ place, fs.resolve path = .ok place ∧ fs.root.at? place = some e := by
  cases hplace : fs.resolve path with
  | error fault =>
      simp only [entry, hplace, bind, Except.bind] at h
      cases h
  | ok place =>
      cases hentry : fs.root.at? place with
      | none =>
          simp only [entry, hplace, hentry, bind, Except.bind] at h
          cases h
      | some e' =>
          simp only [entry, hplace, hentry, bind, Except.bind] at h
          obtain rfl := Except.ok.inj h
          exact ⟨place, rfl, hentry⟩

/-! ## Files below a directory -/

mutual
/-- The path of a file starts with the components of the directory that it is
below. -/
theorem prefix_of_mem_filesBelow (directory path : String) :
    ∀ e : Entry, e.IsProper → path ∈ filesBelow directory e →
      components directory <+: components path
  | .file _, _, hpath => List.mem_singleton.mp hpath ▸ List.prefix_rfl
  | .link _, _, hpath => absurd hpath List.not_mem_nil
  | .directory names, h, hpath => by
      rw [filesBelow] at hpath
      split at hpath
      · exact absurd hpath List.not_mem_nil
      · cases h with
        | directory _ hname hproper =>
            obtain ⟨name, -, hstarts⟩ :=
              prefix_of_mem_filesBelowList directory path names hname hproper hpath
            exact (List.prefix_append _ _).trans hstarts
/-- The next component is the name that the file is at or below. -/
theorem prefix_of_mem_filesBelowList (directory path : String) :
    ∀ names : List (String × Entry), (∀ entry ∈ names, IsName entry.1) →
      (∀ entry ∈ names, entry.2.IsProper) → path ∈ filesBelowList directory names →
      ∃ name ∈ names.map Prod.fst, components directory ++ [.name name] <+: components path
  | [], _, _, hpath => absurd hpath List.not_mem_nil
  | (name, e) :: rest, hname, hproper, hpath => by
      obtain ⟨hfirst, hnames⟩ := List.forall_mem_cons.mp hname
      obtain ⟨he, hrest⟩ := List.forall_mem_cons.mp hproper
      rw [filesBelowList] at hpath
      rcases List.mem_append.mp hpath with hpath | hpath
      · have hstarts := prefix_of_mem_filesBelow (join directory name) path e he hpath
        rw [Path.components_join hfirst] at hstarts
        exact ⟨name, List.mem_cons_self, hstarts⟩
      · obtain ⟨name', hname', hstarts⟩ :=
          prefix_of_mem_filesBelowList directory path rest hnames hrest hpath
        exact ⟨name', List.mem_cons_of_mem _ hname', hstarts⟩
end

mutual
/-- No two files below a directory have paths of the same components. -/
theorem nodup_components_filesBelow (directory : String) :
    ∀ e : Entry, e.IsProper → ((filesBelow directory e).map components).Nodup
  | .file _, _ => List.nodup_singleton _
  | .link _, _ => List.nodup_nil
  | .directory names, h => by
      rw [filesBelow]
      split
      · exact List.nodup_nil
      · cases h with
        | directory hnodup hname hproper =>
            exact nodup_components_filesBelowList directory names hnodup hname hproper
theorem nodup_components_filesBelowList (directory : String) :
    ∀ names : List (String × Entry), (names.map Prod.fst).Nodup →
      (∀ entry ∈ names, IsName entry.1) → (∀ entry ∈ names, entry.2.IsProper) →
      ((filesBelowList directory names).map components).Nodup
  | [], _, _, _ => List.nodup_nil
  | (name, e) :: rest, hnodup, hname, hproper => by
      obtain ⟨hfresh, hdistinct⟩ := List.nodup_cons.mp hnodup
      obtain ⟨hfirst, hnames⟩ := List.forall_mem_cons.mp hname
      obtain ⟨he, hrest⟩ := List.forall_mem_cons.mp hproper
      rw [filesBelowList, List.map_append]
      refine List.nodup_append.mpr ⟨nodup_components_filesBelow (join directory name) e he,
        nodup_components_filesBelowList directory rest hdistinct hnames hrest, ?_⟩
      intro way hway way' hway' heq
      obtain ⟨path, hpath, rfl⟩ := List.mem_map.mp hway
      obtain ⟨path', hpath', rfl⟩ := List.mem_map.mp hway'
      -- Both would go on with the name they are below, and these names differ.
      have hstarts := prefix_of_mem_filesBelow (join directory name) path e he hpath
      rw [Path.components_join hfirst, heq] at hstarts
      obtain ⟨name', hname', hstarts'⟩ :=
        prefix_of_mem_filesBelowList directory path' rest hnames hrest hpath'
      have hsame := (List.prefix_of_prefix_length_le hstarts hstarts' (by simp)).eq_of_length
        (by simp)
      obtain rfl : name = name' :=
        Path.Component.name.inj (List.singleton_inj.mp (List.append_cancel_left hsame))
      exact hfresh hname'
end

/-! ## In the order of paths -/

/-- Paths of different components that are sorted come strictly one before
another. -/
theorem pairwise_before_mergeSort {paths : List String} (h : (paths.map components).Nodup) :
    (paths.mergeSort (fun a b => !Path.before b a)).Pairwise (Path.before · ·) := by
  have hle : ∀ a b : String, (!Path.before b a) = true ↔ components a ≤ components b := by
    intro a b
    rw [Bool.not_eq_true', ← Bool.not_eq_true, Path.before_iff, not_lt]
  have hsorted : (paths.mergeSort fun a b => !Path.before b a).Pairwise
      fun a b => (!Path.before b a) = true := by
    refine List.pairwise_mergeSort (fun a b c hab hbc => ?_) (fun a b => ?_) paths
    · exact (hle a c).mpr (((hle a b).mp hab).trans ((hle b c).mp hbc))
    · rw [Bool.or_eq_true, hle, hle]
      exact le_total _ _
  have hdistinct : (paths.mergeSort fun a b => !Path.before b a).Pairwise
      fun a b => components a ≠ components b :=
    List.pairwise_map.mp (((List.mergeSort_perm paths _).map components).nodup_iff.mpr h)
  refine (hsorted.and hdistinct).imp ?_
  rintro a b ⟨hab, hne⟩
  exact Path.before_iff.mpr (((hle a b).mp hab).lt_of_ne hne)

/-- There is one way to put paths in strict order, whatever order they are
listed in. -/
theorem mergeSort_eq_of_pairwise {paths sorted : List String}
    (hsorted : sorted.Pairwise (Path.before · ·)) (hperm : paths.Perm sorted) :
    paths.mergeSort (fun a b => !Path.before b a) = sorted := by
  have hdistinct : (sorted.map components).Nodup :=
    List.pairwise_map.mpr (hsorted.imp fun h => (Path.before_iff.mp h).ne)
  refine ((List.mergeSort_perm paths _).trans hperm).eq_of_pairwise ?_
    (pairwise_before_mergeSort ((hperm.map components).nodup_iff.mpr hdistinct)) hsorted
  intro a b _ _ hab hba
  exact absurd (Path.before_iff.mp hba) (Path.before_iff.mp hab).not_gt

/-- What is collected of a proper directory tree is in the strict order of
paths, whatever the test and whatever the order in which directories list
their names. -/
theorem collectPaths_sorted {fs : FileSystem} (h : fs.root.IsProper) (accept : String → Bool)
    (root : String) : (fs.collectPaths accept root).Pairwise (Path.before · ·) := by
  unfold collectPaths
  split
  · exact List.pairwise_singleton _ root
  · split
    next e he =>
      obtain ⟨place, -, hplace⟩ := exists_place_of_entry he
      have hnodup := nodup_components_filesBelow root e (h.at? hplace)
      exact pairwise_before_mergeSort (hnodup.sublist (List.filter_sublist.map components))
    next => exact List.Pairwise.nil

/-- A list in strict order that has just the files to be collected is what is
collected. -/
theorem collectPaths_eq {fs : FileSystem} {accept : String → Bool} {root : String} {e : Entry}
    {sorted : List String} (hfile : fs.isFile root = false) (hentry : fs.entry root = .ok e)
    (hperm : ((filesBelow root e).filter accept).Perm sorted)
    (hsorted : sorted.Pairwise (Path.before · ·)) : fs.collectPaths accept root = sorted := by
  rw [collectPaths, if_neg (Bool.eq_false_iff.mp hfile), hentry]
  exact mergeSort_eq_of_pairwise hsorted hperm

/-- No path is collected twice. -/
theorem nodup_collectPaths {fs : FileSystem} (h : fs.root.IsProper) (accept : String → Bool)
    (root : String) : (fs.collectPaths accept root).Nodup := by
  refine (collectPaths_sorted h accept root).imp ?_
  rintro a _ hlt rfl
  exact lt_irrefl _ (Path.before_iff.mp hlt)

end FileSystem
end SourceMetrics
