import CallDoc.Command.FileTree
import CallDoc.Command.Perform
import CallDoc.Proofs.Command.Paths

/-!
The files that the command reads. The paths that its arguments stand for are collected in order,
and of those with the same components one is kept. So each file is read once as long as its paths
have the same components, and it is read again for each further path of other components that leads
to it (`sources_of_files`), by a link or by a dot, a step back or another start.
-/
namespace CallDoc.Command

open Text CallDoc.Path

variable {ι : Type} {around : Surroundings ι} {system : FileSystem ι} {paths found : List Text}
  {path other : Text}

/-- The paths found are in order; they are given ones, and each of those is found in one
spelling. -/
structure Collects (paths found : List Text) : Prop where
  sorted : found.Pairwise Before
  given : ∀ path ∈ found, path ∈ paths
  kept : ∀ path ∈ paths, ∃ other ∈ found, components other = components path

theorem mem_of_mem_insertPath (h : other ∈ insertPath path found) :
    other = path ∨ other ∈ found := by
  induction found with
  | nil => exact .inl (List.mem_singleton.1 h)
  | cons head more ih =>
    rw [insertPath] at h
    split at h
    · exact .inr h
    · split at h
      · exact List.mem_cons.1 h
      · rcases List.mem_cons.1 h with rfl | h
        · exact .inr List.mem_cons_self
        · exact (ih h).imp_right (List.mem_cons_of_mem _)

theorem mem_insertPath_of_mem (h : other ∈ found) : other ∈ insertPath path found := by
  induction found with
  | nil => exact absurd h List.not_mem_nil
  | cons head more ih =>
    rw [insertPath]
    split
    · exact h
    · split
      · exact List.mem_cons_of_mem _ h
      · exact List.mem_cons.2 ((List.mem_cons.1 h).imp_right ih)

theorem exists_mem_insertPath (path : Text) (found : List Text) :
    ∃ other ∈ insertPath path found, components other = components path := by
  induction found with
  | nil => exact ⟨path, List.mem_singleton_self path, rfl⟩
  | cons head more ih =>
    rw [insertPath]
    split
    · rename_i heq
      exact ⟨head, List.mem_cons_self, heq.symm⟩
    · split
      · exact ⟨path, List.mem_cons_self, rfl⟩
      · obtain ⟨other, hother, heq⟩ := ih
        exact ⟨other, List.mem_cons_of_mem _ hother, heq⟩

theorem sorted_insertPath (h : found.Pairwise Before) (path : Text) :
    (insertPath path found).Pairwise Before := by
  induction found with
  | nil => exact List.pairwise_singleton ..
  | cons head more ih =>
    obtain ⟨hhead, hmore⟩ := List.pairwise_cons.1 h
    rw [insertPath]
    split
    · exact h
    · rename_i hne
      split
      · rename_i hbefore
        refine List.pairwise_cons.2 ⟨fun other hother => ?_, h⟩
        rcases List.mem_cons.1 hother with rfl | hother
        · exact hbefore
        · exact Before.trans hbefore (hhead other hother)
      · rename_i hbefore
        refine List.pairwise_cons.2 ⟨fun other hother => ?_, ih hmore⟩
        rcases mem_of_mem_insertPath hother with rfl | hother
        · exact before_of_not_before hne hbefore
        · exact hhead other hother

theorem Collects.insertPath (h : Collects paths found) (path : Text) :
    Collects (paths ++ [path]) (insertPath path found) where
  sorted := sorted_insertPath h.sorted path
  given other hother := by
    rcases mem_of_mem_insertPath hother with rfl | hother
    · exact List.mem_append_right _ (List.mem_singleton_self _)
    · exact List.mem_append_left _ (h.given other hother)
  kept other hother := by
    rcases List.mem_append.1 hother with hother | hother
    · obtain ⟨kept, hkept, heq⟩ := h.kept other hother
      exact ⟨kept, mem_insertPath_of_mem hkept, heq⟩
    · obtain rfl := List.mem_singleton.1 hother
      exact exists_mem_insertPath other found

theorem Collects.foldl (h : Collects paths found) (more : List Text) :
    Collects (paths ++ more)
      (more.foldl (fun found path => Command.insertPath path found) found) := by
  induction more generalizing paths found with
  | nil => rwa [List.append_nil]
  | cons path more ih =>
    have := ih (h.insertPath path)
    rwa [List.append_assoc] at this

theorem collects_nil : Collects [] [] := ⟨.nil, fun _ h => h, fun _ h => absurd h List.not_mem_nil⟩

/-- All the paths that the arguments stand for are collected, or the first argument whose paths
cannot be found ends the search. -/
theorem expand_snd (around : Surroundings ι) (found arguments : List Text) :
    (expand around found arguments).2 = (arguments.mapM (filesOf around)).map fun lists =>
      lists.flatten.foldl (fun found path => insertPath path found) found := by
  induction arguments generalizing found with
  | nil => rfl
  | cons argument more ih =>
    rw [expand, List.mapM_cons]
    cases filesOf around argument with
    | error f => rfl
    | ok paths =>
      dsimp only
      rw [ih]
      cases more.mapM (filesOf around) with
      | error f => rfl
      | ok lists =>
        exact congrArg Except.ok List.foldl_append.symm

theorem sources_snd {arguments : List Text} (hfiles : Task.isInput arguments = false) :
    (sources around arguments).2 = (arguments.mapM (filesOf around)).bind fun lists =>
      (lists.flatten.foldl (fun found path => insertPath path found) []).mapM
        (readSource around.files) := by
  rw [sources, hfiles, if_neg Bool.false_ne_true]
  dsimp only
  rw [expand_snd]
  cases arguments.mapM (filesOf around) <;> rfl

theorem isFile_of_mem_filesOf {argument : Text} (h : filesOf around argument = .ok paths)
    (hpath : path ∈ paths) : around.files.isFile path = true := by
  unfold filesOf at h
  split at h
  · rename_i hfile
    obtain rfl := Except.ok.inj h
    rwa [List.mem_singleton.1 hpath]
  · obtain ⟨candidates, -, rfl⟩ := map_eq_ok_iff.1 h
    exact (Bool.and_eq_true_iff.1 (List.mem_filter.1 hpath).2).1

theorem exists_argument {arguments : List Text} {lists : List (List Text)}
    (hlists : arguments.mapM (filesOf around) = .ok lists) (hpath : path ∈ lists.flatten) :
    ∃ argument ∈ arguments, ∃ paths, filesOf around argument = .ok paths ∧ path ∈ paths := by
  obtain ⟨paths, hpaths, hpath⟩ := List.mem_flatten.1 hpath
  obtain ⟨argument, hargument, h⟩ := exists_of_mem_forall₂ (mapM_eq_ok_iff.1 hlists) hpaths
  exact ⟨argument, hargument, paths, h, hpath⟩

/-! ## How the paths are spelled -/

/-- The paths that match a pattern are spelled as it is: they start where it does, and go straight
down unless one of its components begins with a dot. -/
structure Spells (matching : Text → Except Text (List Text)) : Prop where
  start : ∀ {pattern found}, matching pattern = .ok found →
    ∀ path ∈ found, (IsAbsolute path ↔ IsAbsolute pattern)
  descent : ∀ {pattern found}, matching pattern = .ok found → IsDotless pattern →
    ∀ path ∈ found, IsDescent path

theorem mem_entries {directory : Text} (h : system.entries directory = .ok paths)
    (hpath : path ∈ paths) : ∃ name, Path.isName name = true ∧ path = join directory name := by
  obtain ⟨names, hnames, rfl⟩ := map_eq_ok_iff.1 h
  obtain ⟨name, hname, rfl⟩ := List.mem_map.1 hpath
  exact ⟨name, system.named hnames name hname, rfl⟩

theorem candidates_spelled (hspells : Spells around.matching) {argument : Text}
    (hdotless : IsDotless argument) (h : candidates around argument = .ok paths)
    (hpath : path ∈ paths) : IsDescent path ∧ (IsAbsolute path ↔ IsAbsolute argument) := by
  unfold candidates at h
  split at h
  · obtain ⟨name, hname, rfl⟩ := mem_entries (mapError_eq_ok_iff.1 h) hpath
    exact ⟨isDescent_join hname hdotless.isDescent, isAbsolute_join_iff hname⟩
  · have hmatch := mapError_eq_ok_iff.1 h
    exact ⟨hspells.descent hmatch hdotless path hpath, hspells.start hmatch path hpath⟩

/-- Of an argument without a dot at the start of a component, the files are spelled as it is. -/
theorem filesOf_spelled (hspells : Spells around.matching) {argument : Text}
    (hdotless : IsDotless argument) (h : filesOf around argument = .ok paths)
    (hpath : path ∈ paths) : IsDescent path ∧ (IsAbsolute path ↔ IsAbsolute argument) := by
  unfold filesOf at h
  split at h
  · obtain rfl := Except.ok.inj h
    obtain rfl := List.mem_singleton.1 hpath
    exact ⟨hdotless.isDescent, Iff.rfl⟩
  · obtain ⟨found, hfound, rfl⟩ := map_eq_ok_iff.1 h
    exact candidates_spelled hspells hdotless hfound (List.mem_filter.1 hpath).1

/-! ## What is read -/

theorem readSource_eq_ok_iff {source : Source} :
    readSource system path = .ok source ↔
      source.name = path ∧ system.read source.name = .ok source.content := by
  obtain ⟨name, content⟩ := source
  unfold readSource
  cases hread : system.read path with
  | ok text =>
    constructor
    · rintro ⟨⟩
      exact ⟨rfl, hread⟩
    · rintro ⟨rfl, hcontent⟩
      rw [Except.ok.inj (hread.symm.trans hcontent)]
  | error cause =>
    constructor
    · intro h
      cases h
    · rintro ⟨rfl, hcontent⟩
      rw [hread] at hcontent
      cases hcontent

theorem readSource_eq_error_iff {failure : Failure} :
    readSource system path = .error failure ↔ ∃ cause, system.read path = .error cause ∧
      failure = ⟨"failed to read ".toList ++ path, some cause⟩ := by
  unfold readSource
  cases system.read path <;> simp [eq_comm]

/-- What is read for the given paths: these are files, the texts of some of them are read in the
order of the paths, and for each of the given paths exactly one with its components. -/
structure Reads (system : FileSystem ι) (paths : List Text) (sources : List Source) : Prop where
  sorted : sources.Pairwise fun a b => Before a.name b.name
  given : ∀ s ∈ sources, s.name ∈ paths
  file : ∀ path ∈ paths, system.isFile path = true
  read : ∀ s ∈ sources, system.read s.name = .ok s.content
  once : ∀ path ∈ paths, ∃! s, s ∈ sources ∧ components s.name = components path

variable {files : List Source} {a b : Source} {cwd : List Text}

theorem eq_of_components (h : files.Pairwise fun a b => Before a.name b.name) (ha : a ∈ files)
    (hb : b ∈ files) (heq : components a.name = components b.name) : a = b :=
  List.inj_on_of_nodup_map (List.pairwise_map.2 (h.imp Before.components_ne)) ha hb heq

theorem Collects.reads (h : Collects paths found)
    (hfile : ∀ path ∈ paths, system.isFile path = true)
    (hread : found.mapM (readSource system) = .ok files) : Reads system paths files := by
  have hforall := mapM_eq_ok_iff.1 hread
  have hmem : ∀ s ∈ files, s.name ∈ found ∧ system.read s.name = .ok s.content := fun s hs => by
    obtain ⟨path, hpath, hs⟩ := exists_of_mem_forall₂ hforall hs
    obtain ⟨rfl, hread⟩ := readSource_eq_ok_iff.1 hs
    exact ⟨hpath, hread⟩
  have hsorted : files.Pairwise fun a b => Before a.name b.name :=
    pairwise_of_forall₂ hforall h.sorted fun path path' s s' hs hs' hbefore => by
      rwa [(readSource_eq_ok_iff.1 hs).1, (readSource_eq_ok_iff.1 hs').1]
  refine ⟨hsorted, fun s hs => h.given _ (hmem s hs).1, hfile, fun s hs => (hmem s hs).2,
    fun path hpath => ?_⟩
  obtain ⟨other, hother, heq⟩ := h.kept path hpath
  obtain ⟨s, hs, hsource⟩ := exists_of_mem_forall₂ hforall.flip hother
  obtain ⟨rfl, -⟩ := readSource_eq_ok_iff.1 hsource
  exact ⟨s, ⟨hs, heq⟩, fun s' hs' => eq_of_components hsorted hs'.1 hs (hs'.2.trans heq.symm)⟩

/-- The paths that were found are read, or one that cannot be ends the command. -/
theorem Collects.reads_or_fails (h : Collects paths found)
    (hfile : ∀ path ∈ paths, system.isFile path = true) :
    (∃ path ∈ paths, ∃ cause, system.read path = .error cause ∧
      found.mapM (readSource system) =
        .error ⟨"failed to read ".toList ++ path, some cause⟩) ∨
    ∃ files, found.mapM (readSource system) = .ok files ∧ Reads system paths files := by
  cases hread : found.mapM (readSource system) with
  | error failure =>
    obtain ⟨before, path, after, rfl, -, hpath⟩ := mapM_eq_error_iff.1 hread
    obtain ⟨cause, hcause, rfl⟩ := readSource_eq_error_iff.1 hpath
    exact .inl ⟨path, h.given path (List.mem_append_right before List.mem_cons_self), cause,
      hcause, rfl⟩
  | ok files => exact .inr ⟨files, rfl, h.reads hfile hread⟩

/-- No two sources are one file exactly if all paths that lead to one file have the same
components. -/
theorem Reads.nodup_files_iff (h : Reads system paths files) :
    (files.map fun s => system.file? s.name).Nodup ↔
      ∀ p ∈ paths, ∀ q ∈ paths, system.file? p = system.file? q →
        components p = components q := by
  have hnodup : files.Nodup := h.sorted.imp fun hbefore he => hbefore.components_ne (by rw [he])
  rw [List.nodup_map_iff_inj_on hnodup]
  constructor
  · intro hinj p hp q hq hsame
    obtain ⟨a, ⟨ha, hap⟩, -⟩ := h.once p hp
    obtain ⟨b, ⟨hb, hbq⟩, -⟩ := h.once q hq
    have hfile {path : Text} {s : Source} (hpath : path ∈ paths) (hs : s ∈ files)
        (heq : components s.name = components path) : system.file? s.name = system.file? path :=
      FileSystem.file?_congr (h.file _ (h.given s hs)) (h.file path hpath) heq
    have hab : a = b := hinj a ha b hb (by rw [hfile hp ha hap, hsame, hfile hq hb hbq])
    rw [← hap, ← hbq, hab]
  · intro hpaths a ha b hb hsame
    exact eq_of_components h.sorted ha hb (hpaths _ (h.given a ha) _ (h.given b hb) hsame)

/-- Without links, two paths straight down from the same place lead to one file only if they have
the same components. -/
theorem components_eq_of_file (hplain : system.IsPlain cwd) (hp : IsDescent path)
    (hq : IsDescent other) (hstart : IsAbsolute path ↔ IsAbsolute other)
    (hfile : system.isFile path = true) (hsame : system.file? path = system.file? other) :
    components path = components other := by
  obtain ⟨a, ha⟩ := Option.isSome_iff_exists.1 hfile
  exact components_eq_of_place hp hq hstart (hplain ha (hsame ▸ ha))

/-- Without links and without dots in the arguments no file is read twice. -/
theorem Reads.nodup_of_isDotless {arguments : List Text} {lists : List (List Text)}
    (h : Reads around.files lists.flatten files)
    (hlists : arguments.mapM (filesOf around) = .ok lists) (hplain : around.files.IsPlain cwd)
    (hspells : Spells around.matching) (hdotless : ∀ p ∈ arguments, IsDotless p)
    (hstart : ∀ p ∈ arguments, ∀ q ∈ arguments, (IsAbsolute p ↔ IsAbsolute q)) :
    (files.map fun s => around.files.file? s.name).Nodup := by
  refine h.nodup_files_iff.2 fun p hp q hq hsame => ?_
  obtain ⟨argument, hmem, paths, hpaths, hpath⟩ := exists_argument hlists hp
  obtain ⟨argument', hmem', paths', hpaths', hpath'⟩ := exists_argument hlists hq
  obtain ⟨hdown, habs⟩ := filesOf_spelled hspells (hdotless _ hmem) hpaths hpath
  obtain ⟨hdown', habs'⟩ := filesOf_spelled hspells (hdotless _ hmem') hpaths' hpath'
  exact components_eq_of_file hplain hdown hdown'
    (habs.trans ((hstart _ hmem _ hmem').trans habs'.symm)) (h.file p hp) hsame

/-- The files that the command reads when it is given arguments. An argument whose directory cannot
be listed or whose pattern is refused ends the search, and so does a path that cannot be read.
Otherwise the files are read in the order of their paths, and each of the paths that the arguments
stand for is read once up to its components. So no file is read twice exactly if no two paths of
different components lead to it. Without links, a file that is read twice has a path that turns
back or starts with a dot, or one path from the root and one from the current directory; and where
the matches of a pattern are spelled as it is, no file is read twice when no component of an
argument begins with a dot and all arguments start alike. -/
theorem sources_of_files (around : Surroundings ι) {arguments : List Text}
    (hfiles : Task.isInput arguments = false) :
    match arguments.mapM (filesOf around) with
    | .error failure => (sources around arguments).2 = .error failure
    | .ok lists =>
      (∃ path ∈ lists.flatten, ∃ cause, around.files.read path = .error cause ∧
        (sources around arguments).2 = .error ⟨"failed to read ".toList ++ path, some cause⟩) ∨
      ∃ files, (sources around arguments).2 = .ok files ∧
        Reads around.files lists.flatten files ∧
        ((files.map fun s => around.files.file? s.name).Nodup ↔
          ∀ p ∈ lists.flatten, ∀ q ∈ lists.flatten,
            around.files.file? p = around.files.file? q → components p = components q) ∧
        ∀ cwd, around.files.IsPlain cwd →
          (∀ a ∈ files, ∀ b ∈ files, IsDescent a.name → IsDescent b.name →
            (IsAbsolute a.name ↔ IsAbsolute b.name) →
            around.files.file? a.name = around.files.file? b.name → a = b) ∧
          (Spells around.matching → (∀ p ∈ arguments, IsDotless p) →
            (∀ p ∈ arguments, ∀ q ∈ arguments, (IsAbsolute p ↔ IsAbsolute q)) →
            (files.map fun s => around.files.file? s.name).Nodup) := by
  rw [sources_snd hfiles]
  cases hlists : arguments.mapM (filesOf around) with
  | error failure => rfl
  | ok lists =>
    have hfile : ∀ path ∈ lists.flatten, around.files.isFile path = true := fun path hpath => by
      obtain ⟨argument, -, paths, hpaths, hpath⟩ := exists_argument hlists hpath
      exact isFile_of_mem_filesOf hpaths hpath
    rw [Except.bind]
    obtain hfails | ⟨files, hread, hreads⟩ :=
      (collects_nil.foldl lists.flatten).reads_or_fails hfile
    · exact .inl hfails
    · refine .inr ⟨files, hread, hreads, hreads.nodup_files_iff, fun cwd hplain =>
        ⟨fun a ha b hb hdown hdown' hstart hsame => ?_, hreads.nodup_of_isDotless hlists hplain⟩⟩
      exact eq_of_components hreads.sorted ha hb
        (components_eq_of_file hplain hdown hdown' hstart (hfile _ (hreads.given a ha)) hsame)

/-- The files of a tree, and a search that knows one pattern. -/
def treeSurroundings (tree : FileTree) : Surroundings (List Text) where
  files := tree.system
  matching pattern := .ok (if pattern = "*.txt".toList then ["a.txt".toList] else [])
  input := .ok []
  readingLog _ := []
  typeLog _ := []

theorem spells_treeSurroundings (tree : FileTree) : Spells (treeSurroundings tree).matching where
  start h path hpath := by
    obtain rfl := Except.ok.inj h
    split at hpath
    · obtain rfl := List.mem_singleton.1 hpath
      subst_vars
      decide
    · cases hpath
  descent h _ path hpath := by
    obtain rfl := Except.ok.inj h
    split at hpath
    · obtain rfl := List.mem_singleton.1 hpath
      exact IsDotless.isDescent (by decide)
    · cases hpath

/-- A file at the top and one in a directory. -/
def shelf : Surroundings (List Text) :=
  treeSurroundings
    ⟨[(["a.txt".toList], "A".toList), (["d".toList, "b.txt".toList], "B".toList)], []⟩

theorem sources_of_files_shelf :
    let arguments := ["d".toList, "*.txt".toList, "a.txt".toList, "d//b.txt".toList]
    Task.isInput arguments = false ∧ ∃ files, (sources shelf arguments).2 = .ok files ∧
      (files.map fun s => shelf.files.file? s.name).Nodup := by
  intro arguments
  have hfiles : Task.isInput arguments = false := by decide
  have hlists : arguments.mapM (filesOf shelf) =
      .ok [["d/b.txt".toList], ["a.txt".toList], ["a.txt".toList], ["d//b.txt".toList]] := by
    decide +kernel
  have h := sources_of_files shelf hfiles
  rw [hlists] at h
  rcases h with ⟨path, hpath, cause, hcause, -⟩ | ⟨files, hok, -, -, hplaces⟩
  · have hread : ∀ path ∈ ["d/b.txt".toList, "a.txt".toList, "a.txt".toList, "d//b.txt".toList],
        (shelf.files.read path).isOk = true := by
      decide +kernel
    have hpath := hread path hpath
    rw [hcause] at hpath
    cases hpath
  · exact ⟨hfiles, files, hok, (hplaces [] (FileTree.isPlain_system _)).2
      (spells_treeSurroundings _) (by decide +kernel) (by decide +kernel)⟩

/-- The only file of a directory is read twice when it is named as well: once as the directory
spells it, and once as it is named. -/
theorem sources_of_files_dot :
    let around := treeSurroundings ⟨[(["a.txt".toList], "A".toList)], []⟩
    let arguments := [".".toList, "a.txt".toList]
    (sources around arguments).2 =
        .ok [⟨"./a.txt".toList, "A".toList⟩, ⟨"a.txt".toList, "A".toList⟩] ∧
      around.files.file? "./a.txt".toList = around.files.file? "a.txt".toList ∧
      (perform around (.normalize arguments)).out =
        "==> ./a.txt <==\nA\n\n==> a.txt <==\nA\n".toList := by
  decide +kernel

end CallDoc.Command
