/-
# All files below a directory, however it is listed

A regular file lies below a directory when a chain of names leads to it, each
name to be found in the directory that the chain has come to: this says nothing
of links, since a link has no names below it (`Entry.HasFile`).  The files that
are collected are held against that, as a set and in their order.

* Every chain that leads to a file has a path, and no two have the same
  (`Path.descend_injective`): the components of the path are those of the
  directory, and then the names.
* `filesBelow` comes upon the files whose directories can be listed, and upon
  nothing else (`mem_filesBelow_iff`).
* Systems that differ in the order in which they list the names of a directory,
  at any depth, have the same entries in all places (`Entry.Relisted.at?`), and so
  paths lead to the same entries and the same files are collected.
-/
import Mathlib.Data.Option.Basic
import SourceMetrics.Proofs.Files.Collection

namespace SourceMetrics

open SourceMetrics.Path (components join IsName)

/-! ## Chains of names -/

namespace Path

/-- The path to what a chain of names leads to from a directory. -/
def descend (directory : String) (chain : List String) : String := chain.foldl join directory

theorem components_descend {chain : List String} (h : ∀ name ∈ chain, IsName name)
    (directory : String) :
    components (descend directory chain) = components directory ++ chain.map .name := by
  induction chain generalizing directory with
  | nil => exact (List.append_nil _).symm
  | cons name rest ih =>
      obtain ⟨hname, hrest⟩ := List.forall_mem_cons.mp h
      have hbelow := ih hrest (join directory name)
      rw [components_join hname, List.append_assoc] at hbelow
      exact hbelow

/-- Chains of names that lead to the same path are the same. -/
theorem descend_injective {directory : String} {chain chain' : List String}
    (h : ∀ name ∈ chain, IsName name) (h' : ∀ name ∈ chain', IsName name)
    (hpath : descend directory chain = descend directory chain') : chain = chain' := by
  have hnames := congrArg components hpath
  rw [components_descend h, components_descend h'] at hnames
  refine List.map_injective_iff.mpr ?_ (List.append_cancel_left hnames)
  intro a b hname
  exact Component.name.inj hname

end Path

/-! ## Entries -/

namespace Entry

/-- A chain of names leads to a regular file, through directories alone. -/
def HasFile (e : Entry) (chain : List String) : Prop := ∃ bytes, e.at? chain = some (.file bytes)

theorem lookup_of_mem {name : String} {e : Entry} {names : List (String × Entry)}
    (hnodup : (names.map Prod.fst).Nodup) (h : (name, e) ∈ names) : names.lookup name = some e := by
  obtain ⟨front, back, rfl⟩ := List.append_of_mem h
  refine List.lookup_eq_some_iff.mpr ⟨front, back, rfl, fun entry hentry => ?_⟩
  rw [List.map_append, List.map_cons] at hnodup
  have hfresh := (List.nodup_append.mp hnodup).2.2 entry.1 (List.mem_map_of_mem hentry) name
    List.mem_cons_self
  exact bne_iff_ne.mpr hfresh.symm

theorem at?_cons (names : List (String × Entry)) (name : String) (rest : List String) :
    (directory names).at? (name :: rest) = (names.lookup name).bind (·.at? rest) := rfl

/-- Nothing lies below a file. -/
theorem eq_nil_of_at?_file {bytes : ByteArray} {chain : List String} {below : Entry}
    (h : (file bytes).at? chain = some below) : chain = [] := by
  cases chain with
  | nil => rfl
  | cons name rest => cases h

/-- A chain that leads anywhere in a proper directory tree is made of names. -/
theorem IsProper.isName {e below : Entry} (h : e.IsProper) {chain : List String}
    (hbelow : e.at? chain = some below) : ∀ name ∈ chain, IsName name := by
  induction chain generalizing e with
  | nil => exact fun _ hname => absurd hname List.not_mem_nil
  | cons name rest ih =>
      obtain ⟨next, hnext, hrest⟩ := Option.bind_eq_some_iff.mp hbelow
      cases h with
      | file bytes => cases hnext
      | link target => cases hnext
      | directory hnodup hname hproper =>
          have hmem := mem_of_lookup hnext
          exact List.forall_mem_cons.mpr ⟨hname _ hmem, ih (hproper _ hmem) hrest⟩

/-- Entries that differ at most in the order in which directories list their
names. -/
inductive Relisted : Entry → Entry → Prop
  | file (bytes : ByteArray) : Relisted (.file bytes) (.file bytes)
  | link (target : String) : Relisted (.link target) (.link target)
  | directory {names names' : List (String × Entry)}
      (hnames : (names.map Prod.fst).Perm (names'.map Prod.fst))
      (hbelow : ∀ name e e', (name, e) ∈ names → (name, e') ∈ names' → Relisted e e') :
      Relisted (.directory names) (.directory names')

/-- A directory that is listed in another order has the same names. -/
theorem exists_mem_of_perm {names names' : List (String × Entry)}
    (h : (names.map Prod.fst).Perm (names'.map Prod.fst)) {name : String} {e : Entry}
    (hmem : (name, e) ∈ names) : ∃ e', (name, e') ∈ names' := by
  obtain ⟨⟨_, e'⟩, he', rfl⟩ := List.mem_map.mp (h.mem_iff.mp (List.mem_map_of_mem hmem))
  exact ⟨e', he'⟩

theorem Relisted.isProper {e e' : Entry} (h : e.Relisted e') (hproper : e.IsProper) :
    e'.IsProper := by
  induction h with
  | file bytes => exact .file bytes
  | link target => exact .link target
  | directory hnames hbelow ih =>
      cases hproper with
      | directory hnodup hname hproper =>
          refine .directory (hnames.nodup_iff.mp hnodup) ?_ ?_
          · rintro ⟨name, e'⟩ hmem
            obtain ⟨e, he⟩ := exists_mem_of_perm hnames.symm hmem
            exact hname (name, e) he
          · rintro ⟨name, e'⟩ hmem
            obtain ⟨e, he⟩ := exists_mem_of_perm hnames.symm hmem
            exact ih name e e' he hmem (hproper (name, e) he)

theorem eq_of_mem_of_mem {names : List (String × Entry)} (hnodup : (names.map Prod.fst).Nodup)
    {name : String} {e e' : Entry} (h : (name, e) ∈ names) (h' : (name, e') ∈ names) : e = e' :=
  congrArg Prod.snd (List.inj_on_of_nodup_map hnodup h h' rfl)

theorem Relisted.refl {e : Entry} (h : e.IsProper) : e.Relisted e := by
  induction h with
  | file bytes => exact .file bytes
  | link target => exact .link target
  | directory hnodup hname hproper ih =>
      refine .directory .rfl fun name e e' he he' => ?_
      rw [← eq_of_mem_of_mem hnodup he he']
      exact ih (name, e) he

/-- The names of one directory may stand in any order. -/
theorem Relisted.of_perm {names names' : List (String × Entry)}
    (h : (Entry.directory names).IsProper) (hperm : names.Perm names') :
    (Entry.directory names).Relisted (Entry.directory names') := by
  cases h with
  | directory hnodup hname hproper =>
      refine .directory (hperm.map Prod.fst) fun name e e' he he' => ?_
      rw [← eq_of_mem_of_mem hnodup he (hperm.mem_iff.mpr he')]
      exact .refl (hproper (name, e) he)

/-- A directory that is listed in another order has the same entries under its
names. -/
theorem Relisted.lookup {names names' : List (String × Entry)}
    (h : (Entry.directory names).Relisted (Entry.directory names'))
    (hproper : (Entry.directory names).IsProper) (name : String) :
    Option.Rel (fun e e' => e.IsProper ∧ e.Relisted e') (names.lookup name)
      (names'.lookup name) := by
  have hproper' := h.isProper hproper
  cases h with
  | directory hnames hbelow =>
      cases hproper with
      | directory hnodup _ hproper =>
          cases hproper' with
          | directory hnodup' _ _ =>
              cases he : names.lookup name with
              | some e =>
                  have hmem := mem_of_lookup he
                  obtain ⟨e', hmem'⟩ := exists_mem_of_perm hnames hmem
                  rw [lookup_of_mem hnodup' hmem']
                  exact .some ⟨hproper _ hmem, hbelow name e e' hmem hmem'⟩
              | none =>
                  cases he' : names'.lookup name with
                  | none => exact .none
                  | some e' =>
                      obtain ⟨e, hmem⟩ := exists_mem_of_perm hnames.symm (mem_of_lookup he')
                      rw [lookup_of_mem hnodup hmem] at he
                      cases he

/-- What stands in a place does not depend on how directories are listed. -/
theorem Relisted.at? {e e' : Entry} (h : e.Relisted e') (hproper : e.IsProper)
    (chain : List String) :
    Option.Rel (fun e e' => e.IsProper ∧ e.Relisted e') (e.at? chain) (e'.at? chain) := by
  induction chain generalizing e e' with
  | nil => exact .some ⟨hproper, h⟩
  | cons name rest ih =>
      cases h with
      | file bytes => exact .none
      | link target => exact .none
      | @directory names names' hnames hbelow =>
          have hnext := (Relisted.directory hnames hbelow).lookup hproper name
          rw [at?_cons, at?_cons]
          generalize names.lookup name = next at hnext ⊢
          generalize names'.lookup name = next' at hnext ⊢
          cases hnext with
          | none => exact .none
          | some hnext => exact ih hnext.2 hnext.1

theorem Relisted.hasFile_iff {e e' : Entry} (h : e.Relisted e') (hproper : e.IsProper)
    (chain : List String) : e.HasFile chain ↔ e'.HasFile chain := by
  have hat := h.at? hproper chain
  unfold HasFile
  generalize e.at? chain = o at hat ⊢
  generalize e'.at? chain = o' at hat ⊢
  cases hat with
  | none => exact Iff.rfl
  | some hbelow =>
      cases hbelow.2 with
      | file bytes => exact Iff.rfl
      | link target => simp only [Option.some.injEq, reduceCtorEq, exists_false]
      | directory => simp only [Option.some.injEq, reduceCtorEq, exists_false]

end Entry

/-! ## Files below a directory -/

namespace FileSystem

/-- Every directory on the way down a chain of names can be listed: its path is
not too long. -/
def Listed (directory : String) : List String → Prop
  | [] => True
  | name :: rest => directory.utf8ByteSize ≤ pathLimit ∧ Listed (join directory name) rest

instance decidableListed (directory : String) : (chain : List String) →
    Decidable (Listed directory chain)
  | [] => .isTrue trivial
  | name :: rest =>
    have := decidableListed (join directory name) rest
    inferInstanceAs (Decidable (_ ∧ _))

theorem filesBelowList_eq_flatMap (directory : String) (names : List (String × Entry)) :
    filesBelowList directory names =
      names.flatMap fun entry => filesBelow (join directory entry.1) entry.2 := by
  induction names with
  | nil => rfl
  | cons entry rest ih => rw [filesBelowList, List.flatMap_cons, ih]

/-- The paths found are those of the chains that lead to a file through
directories that can be listed. -/
theorem mem_filesBelow_iff {e : Entry} (h : e.IsProper) (directory path : String) :
    path ∈ filesBelow directory e ↔
      ∃ chain, e.HasFile chain ∧ Listed directory chain ∧ path = Path.descend directory chain := by
  induction h generalizing directory with
  | file bytes =>
      rw [filesBelow, List.mem_singleton]
      constructor
      · intro hpath
        exact ⟨[], ⟨bytes, rfl⟩, trivial, hpath⟩
      · rintro ⟨chain, ⟨bytes', hfile⟩, -, hpath⟩
        obtain rfl := Entry.eq_nil_of_at?_file hfile
        exact hpath
  | link target =>
      rw [filesBelow]
      constructor
      · intro hpath
        exact absurd hpath List.not_mem_nil
      · rintro ⟨chain, ⟨bytes, hfile⟩, -, -⟩
        cases chain with
        | nil => cases hfile
        | cons name rest => cases hfile
  | @directory names hnodup hname hproper ih =>
      rw [filesBelow, filesBelowList_eq_flatMap]
      constructor
      · intro hpath
        split at hpath
        · exact absurd hpath List.not_mem_nil
        next hlisted =>
          obtain ⟨⟨name, e⟩, hmem, hpath⟩ := List.mem_flatMap.mp hpath
          obtain ⟨chain, ⟨bytes, hfile⟩, hbelow, hpath⟩ := (ih _ hmem _).mp hpath
          refine ⟨name :: chain, ⟨bytes, ?_⟩, ⟨Nat.le_of_not_lt hlisted, hbelow⟩, hpath⟩
          rw [Entry.at?_cons, Entry.lookup_of_mem hnodup hmem]
          exact hfile
      · rintro ⟨chain, ⟨bytes, hfile⟩, hlisted, hpath⟩
        cases chain with
        | nil => cases hfile
        | cons name rest =>
            obtain ⟨next, hnext, hrest⟩ := Option.bind_eq_some_iff.mp hfile
            have hmem := Entry.mem_of_lookup hnext
            rw [if_neg (Nat.not_lt.mpr hlisted.1)]
            refine List.mem_flatMap.mpr ⟨(name, next), hmem, (ih _ hmem _).mpr ?_⟩
            exact ⟨rest, ⟨bytes, hrest⟩, hlisted.2, hpath⟩

/-- The path leads to an entry below which a chain of names leads to a file. -/
def HasFile (fs : FileSystem) (root : String) (chain : List String) : Prop :=
  ∃ e, fs.entry root = .ok e ∧ e.HasFile chain

theorem HasFile.isName {fs : FileSystem} (h : fs.root.IsProper) {root : String}
    {chain : List String} (hfile : fs.HasFile root chain) : ∀ name ∈ chain, IsName name := by
  obtain ⟨e, he, bytes, hat⟩ := hfile
  obtain ⟨place, -, hplace⟩ := exists_place_of_entry he
  exact (h.at? hplace).isName hat

/-- A file below a path is reached by one chain of names alone. -/
theorem HasFile.chain_eq {fs : FileSystem} (h : fs.root.IsProper) {root : String}
    {chain chain' : List String} (hfile : fs.HasFile root chain) (hfile' : fs.HasFile root chain')
    (hpath : Path.descend root chain = Path.descend root chain') : chain = chain' :=
  Path.descend_injective (hfile.isName h) (hfile'.isName h) hpath

theorem mem_collectPaths_iff {fs : FileSystem} (h : fs.root.IsProper) (accept : String → Bool)
    {root : String} (hroot : fs.isFile root = false) (path : String) :
    path ∈ fs.collectPaths accept root ↔ accept path = true ∧
      ∃ chain, fs.HasFile root chain ∧ Listed root chain ∧ path = Path.descend root chain := by
  rw [collectPaths, if_neg (Bool.eq_false_iff.mp hroot)]
  cases he : fs.entry root with
  | error fault =>
      constructor
      · intro hpath
        exact absurd hpath List.not_mem_nil
      · rintro ⟨-, chain, ⟨e, he', -⟩, -⟩
        rw [he] at he'
        cases he'
  | ok e =>
      obtain ⟨place, -, hplace⟩ := exists_place_of_entry he
      show path ∈ List.mergeSort _ _ ↔ _
      rw [List.mem_mergeSort, List.mem_filter, mem_filesBelow_iff (h.at? hplace), and_comm]
      refine and_congr_right fun _ => exists_congr fun chain => and_congr_left fun _ => ?_
      constructor
      · intro hfile
        exact ⟨e, he, hfile⟩
      · rintro ⟨e', he', hfile⟩
        obtain rfl := Except.ok.inj (he.symm.trans he')
        exact hfile

/-! ## Listings in another order -/

/-- Systems that differ at most in the order in which directories list their
names. -/
structure Relisted (fs fs' : FileSystem) : Prop where
  root : fs.root.Relisted fs'.root
  current : fs.current = fs'.current

section
variable {fs fs' : FileSystem}

theorem Relisted.isDirectoryAt_eq (h : fs.Relisted fs') (hproper : fs.root.IsProper)
    (place : List String) : fs.isDirectoryAt place = fs'.isDirectoryAt place := by
  have hat := h.root.at? hproper place
  unfold isDirectoryAt
  generalize fs.root.at? place = o at hat ⊢
  generalize fs'.root.at? place = o' at hat ⊢
  cases hat with
  | none => rfl
  | some hbelow => cases hbelow.2 <;> rfl

theorem Relisted.followWith_eq (h : fs.Relisted fs') (hproper : fs.root.IsProper)
    (jump : List String → List String → Except IoFault (List String)) (place parts : List String) :
    fs.followWith jump place parts = fs'.followWith jump place parts := by
  induction parts generalizing place with
  | nil => rfl
  | cons part rest ih =>
      have hat := h.root.at? hproper (place ++ [part])
      rw [followWith, followWith, h.isDirectoryAt_eq hproper, ih, ih]
      generalize fs.root.at? (place ++ [part]) = o at hat ⊢
      generalize fs'.root.at? (place ++ [part]) = o' at hat ⊢
      cases hat with
      | none => rfl
      | some hbelow =>
          cases hbelow.2 with
          | file bytes => simp only [ih]
          | link target => rfl
          | directory => simp only [ih]

theorem Relisted.follow_eq (h : fs.Relisted fs') (hproper : fs.root.IsProper) (links : Nat) :
    fs.follow links = fs'.follow links := by
  induction links with
  | zero => exact funext₂ (h.followWith_eq hproper _)
  | succ links ih =>
      rw [follow, follow, ih]
      exact funext₂ (h.followWith_eq hproper _)

theorem Relisted.resolve_eq (h : fs.Relisted fs') (hproper : fs.root.IsProper) (path : String) :
    fs.resolve path = fs'.resolve path := by
  have hlocate : fs.locate path = fs'.locate path := by
    rw [locate, locate, h.follow_eq hproper, h.current]
  rw [resolve, resolve, hlocate]

/-- A path leads to the same entry but for the order in which it is listed. -/
theorem Relisted.entry (h : fs.Relisted fs') (hproper : fs.root.IsProper) (path : String) :
    (∃ fault, fs.entry path = .error fault ∧ fs'.entry path = .error fault) ∨
      ∃ e e', fs.entry path = .ok e ∧ fs'.entry path = .ok e' ∧ e.IsProper ∧ e.Relisted e' := by
  rw [FileSystem.entry, FileSystem.entry, h.resolve_eq hproper]
  cases fs'.resolve path with
  | error fault => exact .inl ⟨fault, rfl, rfl⟩
  | ok place =>
      have hat := h.root.at? hproper place
      simp only [bind, Except.bind]
      generalize fs.root.at? place = o at hat ⊢
      generalize fs'.root.at? place = o' at hat ⊢
      cases hat with
      | none => exact .inl ⟨.notFound, rfl, rfl⟩
      | @some e e' hbelow => exact .inr ⟨e, e', rfl, rfl, hbelow⟩

theorem Relisted.isFile_eq (h : fs.Relisted fs') (hproper : fs.root.IsProper) (path : String) :
    fs.isFile path = fs'.isFile path := by
  unfold isFile
  rcases h.entry hproper path with ⟨fault, he, he'⟩ | ⟨e, e', he, he', -, hbelow⟩
  · rw [he, he']
  · rw [he, he']
    cases hbelow <;> rfl

/-- The same files are found below an entry, only perhaps in another order. -/
theorem filesBelow_perm {e e' : Entry} (h : e.Relisted e') (hproper : e.IsProper)
    (directory : String) : (filesBelow directory e).Perm (filesBelow directory e') := by
  have hproper' := h.isProper hproper
  refine (List.perm_ext_iff_of_nodup ?_ ?_).mpr fun path => ?_
  · exact (nodup_components_filesBelow directory e hproper).of_map
  · exact (nodup_components_filesBelow directory e' hproper').of_map
  · rw [mem_filesBelow_iff hproper, mem_filesBelow_iff hproper']
    simp only [h.hasFile_iff hproper]

/-- What is collected does not depend on the order in which directories list
their names. -/
theorem Relisted.collectPaths_eq (h : fs.Relisted fs') (hproper : fs.root.IsProper)
    (accept : String → Bool) (root : String) :
    fs.collectPaths accept root = fs'.collectPaths accept root := by
  have hfile := h.isFile_eq hproper root
  rcases h.entry hproper root with ⟨fault, he, he'⟩ | ⟨e, e', he, he', hbelow, hrelisted⟩
  · rw [collectPaths, collectPaths, hfile, he, he']
  · cases hroot : fs.isFile root with
    | true =>
        rw [collectPaths, collectPaths, ← hfile, hroot, if_pos rfl, if_pos rfl]
    | false =>
        have hsorted := collectPaths_sorted (h.root.isProper hproper) accept root
        refine FileSystem.collectPaths_eq hroot he ?_ hsorted
        have hperm := (filesBelow_perm hrelisted hbelow root).filter accept
        rw [collectPaths, if_neg (Bool.eq_false_iff.mp (hfile.symm.trans hroot)), he']
        exact hperm.trans (List.mergeSort_perm _ _).symm

end

/-! ## What is collected -/

/-- A path to a file gives just that, whatever the test says.  Any other path
gives the regular files below it that pass the test and whose directories can be
listed: each is reached by one chain of names, of which none is followed through a
link, and stands once in a list that is strictly increasing in the order of path
components.  Where every directory on the way to a file can be listed, these are
all files below that pass.  In whatever order the directories of the system list
their names, the outcome is the same. -/
theorem collectPaths_reaches_files {fs : FileSystem} (h : fs.root.IsProper)
    (accept : String → Bool) (root : String) :
    (fs.isFile root = true → fs.collectPaths accept root = [root]) ∧
    (fs.isFile root = false →
      (fs.collectPaths accept root).Pairwise (components · < components ·) ∧
      (∀ path, path ∈ fs.collectPaths accept root ↔ accept path = true ∧
        ∃! chain, fs.HasFile root chain ∧ Listed root chain ∧ path = Path.descend root chain) ∧
      ((∀ chain, fs.HasFile root chain → Listed root chain) →
        ∀ path, path ∈ fs.collectPaths accept root ↔ accept path = true ∧
          ∃! chain, fs.HasFile root chain ∧ path = Path.descend root chain)) ∧
    ∀ fs' : FileSystem, fs.Relisted fs' →
      fs'.collectPaths accept root = fs.collectPaths accept root := by
  refine ⟨fun hroot => ?_, fun hroot => ⟨?_, fun path => ?_, fun hlisted path => ?_⟩,
    fun fs' hrelisted => (hrelisted.collectPaths_eq h accept root).symm⟩
  · rw [collectPaths, if_pos hroot]
  · exact (collectPaths_sorted h accept root).imp Path.before_iff.mp
  · rw [mem_collectPaths_iff h accept hroot]
    refine and_congr_right fun _ => ⟨?_, ExistsUnique.exists⟩
    rintro ⟨chain, hfile, hlisted, rfl⟩
    refine ⟨chain, ⟨hfile, hlisted, rfl⟩, ?_⟩
    rintro chain' ⟨hfile', -, hpath⟩
    exact hfile'.chain_eq h hfile hpath.symm
  · rw [mem_collectPaths_iff h accept hroot]
    refine and_congr_right fun _ => ⟨?_, ?_⟩
    · rintro ⟨chain, hfile, -, rfl⟩
      refine ⟨chain, ⟨hfile, rfl⟩, ?_⟩
      rintro chain' ⟨hfile', hpath⟩
      exact hfile'.chain_eq h hfile hpath.symm
    · rintro ⟨chain, ⟨hfile, hpath⟩, -⟩
      exact ⟨chain, hfile, hlisted chain hfile, hpath⟩

/-! ### A directory with a dash, a link and a test -/

/-- The names of a directory, of which `a-b` comes before `a/b` as a text. -/
def dashedNames : List (String × Entry) :=
  [("a-b", .file "".toUTF8), ("l", .link "a"), ("a", .directory [("b", .file "".toUTF8)]),
    ("c.txt", .file "".toUTF8)]

def dashed : FileSystem := ⟨.directory [("p", .directory dashedNames)], []⟩

/-- The same files, in a directory that is listed backwards. -/
def dashedBackwards : FileSystem := ⟨.directory [("p", .directory dashedNames.reverse)], []⟩

theorem isProper_dashedNames : (Entry.directory dashedNames).IsProper := by
  have hbelow : (Entry.directory [("b", .file "".toUTF8)]).IsProper := by
    refine .directory (by decide) (by decide) ?_
    simp only [List.forall_mem_cons]
    exact ⟨.file _, fun _ h => absurd h List.not_mem_nil⟩
  refine .directory (by decide) (by decide) ?_
  simp only [dashedNames, List.forall_mem_cons]
  exact ⟨.file _, .link _, hbelow, .file _, fun _ h => absurd h List.not_mem_nil⟩

theorem isProper_dashed : dashed.root.IsProper := by
  refine .directory (by decide) (by decide) ?_
  simp only [List.forall_mem_cons]
  exact ⟨isProper_dashedNames, fun _ h => absurd h List.not_mem_nil⟩

theorem relisted_dashed : dashed.Relisted dashedBackwards := by
  refine ⟨.directory .rfl fun name e e' he he' => ?_, rfl⟩
  obtain ⟨-, rfl⟩ := Prod.mk.inj (List.mem_singleton.mp he)
  obtain ⟨-, rfl⟩ := Prod.mk.inj (List.mem_singleton.mp he')
  exact .of_perm isProper_dashedNames (List.reverse_perm dashedNames).symm

/-- No directory of it has a long path. -/
theorem listed_dashed (chain : List String) (h : dashed.HasFile "/p" chain) :
    Listed "/p" chain := by
  obtain ⟨e, he, bytes, hat⟩ := h
  obtain rfl := Except.ok.inj he
  cases chain with
  | nil => trivial
  | cons name rest =>
      obtain ⟨next, hnext, hrest⟩ := Option.bind_eq_some_iff.mp hat
      have hmem := Entry.mem_of_lookup hnext
      simp only [dashedNames, List.mem_cons, Prod.mk.injEq, List.not_mem_nil, or_false] at hmem
      rcases hmem with ⟨rfl, rfl⟩ | ⟨rfl, rfl⟩ | ⟨rfl, rfl⟩ | ⟨rfl, rfl⟩
      · obtain rfl := Entry.eq_nil_of_at?_file hrest
        decide
      · cases rest <;> cases hrest
      · cases rest with
        | nil => decide
        | cons name rest =>
            obtain ⟨next, hnext, hrest⟩ := Option.bind_eq_some_iff.mp hrest
            obtain ⟨rfl, rfl⟩ := Prod.mk.inj (List.mem_singleton.mp (Entry.mem_of_lookup hnext))
            obtain rfl := Entry.eq_nil_of_at?_file hrest
            decide
      · obtain rfl := Entry.eq_nil_of_at?_file hrest
        decide

theorem collectPaths_reaches_files_dashed :
    let accept : String → Bool := fun path => path ≠ "/p/c.txt"
    dashed.isFile "/p" = false ∧
    dashed.collectPaths accept "/p" = ["/p/a/b", "/p/a-b"] ∧
    dashedBackwards.collectPaths accept "/p" = ["/p/a/b", "/p/a-b"] ∧
    (∀ path, path ∈ ["/p/a/b", "/p/a-b"] ↔ accept path = true ∧
      ∃! chain, dashed.HasFile "/p" chain ∧ path = Path.descend "/p" chain) ∧
    dashed.collectPaths accept "/p/c.txt" = ["/p/c.txt"] := by
  intro accept
  have hroot : dashed.isFile "/p" = false := by decide +kernel
  have hcollected : dashed.collectPaths accept "/p" = ["/p/a/b", "/p/a-b"] :=
    collectPaths_eq (e := .directory dashedNames) hroot rfl (by decide +kernel) (by decide +kernel)
  obtain ⟨-, hbelow, hrelisted⟩ := collectPaths_reaches_files isProper_dashed accept "/p"
  obtain ⟨-, -, hall⟩ := hbelow hroot
  obtain ⟨hfile, -, -⟩ := collectPaths_reaches_files isProper_dashed accept "/p/c.txt"
  refine ⟨hroot, hcollected, ?_, ?_, hfile (by decide +kernel)⟩
  · rw [hrelisted dashedBackwards relisted_dashed, hcollected]
  · rw [← hcollected]
    exact hall listed_dashed

end FileSystem
end SourceMetrics
