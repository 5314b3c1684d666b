import BlockLint.Proofs.Paths

/-!
The files that a list of paths stands for. Nothing is selected if a path leads nowhere, and the
first such path is told. Otherwise a path that leads to a file stands for that file, whatever its
name, and one that leads to a folder for all files below it with a Markdown extension. These come in
the order of their components and each once, so neither the order nor the repetition of the given
paths matters.
-/
namespace BlockLint

namespace FilePath

def joinAll (folder : FilePath) (names : List Text) : FilePath :=
  names.foldl join folder

end FilePath

namespace Entry

/-- The names lead down from an entry to another. -/
inductive Leads : Entry → List Text → Entry → Prop where
  | here (entry : Entry) : Leads entry [] entry
  | down {children : List (Text × Entry)} {name : Text} {child below : Entry} {names : List Text} :
      (name, child) ∈ children → Leads child names below →
      Leads (.folder children) (name :: names) below

/-- Everything below the entry has a name that it may have. -/
def Proper (entry : Entry) : Prop :=
  ∀ names below, entry.Leads names below → ∀ name ∈ names, FilePath.IsName name

/-- Every folder at or below the entry, which stands at `path`, can be opened by its path. -/
def Openable (path : FilePath) (entry : Entry) : Prop :=
  ∀ names children, entry.Leads names (.folder children) →
    FilePath.isTooLong (FilePath.joinAll path names) = false

section
variable {children : List (Text × Entry)} {path : FilePath}

@[simp] theorem proper_file (content : ByteArray) : (file content).Proper := by
  intro names below leads name member
  cases leads
  cases member

@[simp] theorem proper_folder :
    (folder children).Proper ↔ ∀ pair ∈ children, FilePath.IsName pair.1 ∧ pair.2.Proper := by
  constructor
  · rintro proper ⟨name, child⟩ member
    constructor
    · exact proper [name] child (.down member (.here child)) name List.mem_cons_self
    · intro names below leads other later
      exact proper (name :: names) below (.down member leads) other (List.mem_cons_of_mem _ later)
  · intro all names below leads other isOther
    cases leads with
    | here => cases isOther
    | @down _ name child _ names member leads =>
      obtain ⟨isName, proper⟩ := all (name, child) member
      rcases List.mem_cons.mp isOther with rfl | later
      · exact isName
      · exact proper names below leads other later

@[simp] theorem openable_file (content : ByteArray) : (file content).Openable path := by
  intro names children leads
  cases leads

@[simp] theorem openable_folder :
    (folder children).Openable path ↔ FilePath.isTooLong path = false ∧
      ∀ pair ∈ children, pair.2.Openable (FilePath.join path pair.1) := by
  constructor
  · intro openable
    refine ⟨openable [] children (.here _), ?_⟩
    rintro ⟨name, child⟩ member names others leads
    exact openable (name :: names) others (.down member leads)
  · rintro ⟨short, all⟩ names others leads
    cases leads with
    | here => exact short
    | @down _ name child _ names member leads =>
      exact all (name, child) member names others leads

end

mutual

theorem mem_markdownFiles (path found : FilePath) : (entry : Entry) → entry.Openable path →
    (found ∈ entry.markdownFiles path ↔ ∃ names content, entry.Leads names (.file content) ∧
      found = FilePath.joinAll path names ∧ FilePath.isMarkdown found = true)
  | .file content, _ => by
    rw [markdownFiles]
    constructor
    · intro member
      split at member
      · cases List.mem_singleton.mp member
        exact ⟨[], content, .here _, rfl, ‹_›⟩
      · cases member
    · rintro ⟨names, other, leads, same, isMarkdown⟩
      cases leads
      have here : found = path := same
      rw [← here, if_pos isMarkdown]
      exact List.mem_singleton_self _
  | .folder children, openable => by
    obtain ⟨short, all⟩ := openable_folder.mp openable
    rw [markdownFiles, if_pos (by simp [short]), mem_markdownChildren path found children all]
    constructor
    · rintro ⟨name, child, member, names, content, leads, same, isMarkdown⟩
      exact ⟨name :: names, content, .down member leads, same, isMarkdown⟩
    · rintro ⟨names, content, leads, same, isMarkdown⟩
      cases leads with
      | @down _ name child _ names member leads =>
        exact ⟨name, child, member, names, content, leads, same, isMarkdown⟩

theorem mem_markdownChildren (path found : FilePath) : (children : List (Text × Entry)) →
    (∀ pair ∈ children, pair.2.Openable (FilePath.join path pair.1)) →
    (found ∈ markdownChildren path children ↔ ∃ name child, (name, child) ∈ children ∧
      ∃ names content, child.Leads names (.file content) ∧
        found = FilePath.joinAll (FilePath.join path name) names ∧
        FilePath.isMarkdown found = true)
  | [], _ => by simp [markdownChildren]
  | (name, child) :: rest, openable => by
    rw [markdownChildren, List.mem_append,
      mem_markdownFiles _ found child (openable (name, child) List.mem_cons_self),
      mem_markdownChildren path found rest fun pair later =>
        openable pair (List.mem_cons_of_mem _ later)]
    constructor
    · rintro (here | ⟨other, entry, member, later⟩)
      · exact ⟨name, child, List.mem_cons_self, here⟩
      · exact ⟨other, entry, List.mem_cons_of_mem _ member, later⟩
    · rintro ⟨other, entry, member, below⟩
      rcases List.mem_cons.mp member with same | later
      · cases same
        exact .inl below
      · exact .inr ⟨other, entry, later, below⟩

end

theorem mem_markdownFiles_folder {path found : FilePath} {children : List (Text × Entry)}
    (proper : (folder children).Proper) (openable : (folder children).Openable path) :
    found ∈ markdownChildren path children ↔
      ∃ names name content, (folder children).Leads (names ++ [name]) (.file content) ∧
        found = FilePath.joinAll path (names ++ [name]) ∧ FilePath.IsMarkdownName name := by
  have whole := mem_markdownFiles path found (.folder children) openable
  rw [markdownFiles, if_pos (by simp [(openable_folder.mp openable).1])] at whole
  have last (names : List Text) (name : Text) : FilePath.joinAll path (names ++ [name]) =
      FilePath.join (FilePath.joinAll path names) name := by
    simp [FilePath.joinAll]
  rw [whole]
  constructor
  · rintro ⟨names, content, leads, rfl, isMarkdown⟩
    rcases List.eq_nil_or_concat names with rfl | ⟨front, name, rfl⟩
    · cases leads
    · rw [List.concat_eq_append] at leads isMarkdown ⊢
      have isName := proper _ _ leads name (by simp)
      rw [last, FilePath.isMarkdown_join _ isName] at isMarkdown
      exact ⟨front, name, content, leads, rfl, isMarkdown⟩
  · rintro ⟨names, name, content, leads, rfl, isMarkdown⟩
    have isName := proper _ _ leads name (by simp)
    refine ⟨names ++ [name], content, leads, rfl, ?_⟩
    rwa [last, FilePath.isMarkdown_join _ isName]

end Entry

namespace FileSystem

def ProperTrail (trail : Trail) : Prop :=
  ∀ step ∈ trail, ∀ entry, step.found = .ok entry → entry.Proper

section
variable {system : FileSystem} (proper : system.root.Proper)
include proper

theorem found_proper {trail : Trail} {entry : Entry} (isProper : ProperTrail trail)
    (found : system.found trail = .ok entry) : entry.Proper := by
  cases trail with
  | nil =>
    cases found
    exact proper
  | cons step rest => exact isProper step List.mem_cons_self entry found

theorem follow_proper {parts : List Text} {trail last : Trail} (isProper : ProperTrail trail)
    (followed : system.follow trail parts = .ok last) : ProperTrail last := by
  induction parts generalizing trail with
  | nil =>
    cases followed
    exact isProper
  | cons part rest ih =>
    rw [follow] at followed
    split at followed
    · cases followed
    · cases followed
    · rename_i children isFolder
      have folder := found_proper proper isProper isFolder
      refine ih ?_ followed
      split
      · rename_i name _
        intro step member entry found
        rcases List.mem_cons.mp member with rfl | earlier
        · simp only [Step.into] at found
          split at found
          · cases found
          · split at found
            · cases found
            · rename_i looked
              cases found
              obtain ⟨before, after, parts, _⟩ := List.lookup_eq_some_iff.mp looked
              have member : (name, entry) ∈ children := by simp [parts]
              exact (Entry.proper_folder.mp folder (name, entry) member).2
        · exact isProper step earlier entry found
      · exact fun step member => isProper step (List.mem_of_mem_tail member)
      · exact isProper

theorem entry?_proper {path : FilePath} {entry : Entry} (found : system.entry? path = some entry) :
    entry.Proper := by
  unfold entry? at found
  split at found
  · rename_i trail located
    have followed : ∃ parts, system.follow [] parts = .ok trail := by
      unfold locate followFrom at located
      split at located
      · cases located
      split at located
      · cases located
      split at located
      · cases located
      split at located
      all_goals exact ⟨_, located⟩
    obtain ⟨parts, followed⟩ := followed
    have isProper : ProperTrail trail := by
      apply follow_proper proper _ followed
      exact fun step member => absurd member List.not_mem_nil
    apply found_proper proper isProper
    cases here : system.found trail with
    | error e => simp [here, Except.toOption] at found
    | ok other => simpa [here, Except.toOption] using found
  · cases found

end

/-- A path that the arguments stand for: an argument that is a file, or a file with a Markdown
extension below an argument that is a folder. -/
inductive Selects (system : FileSystem) (arguments : List FilePath) : FilePath → Prop where
  | file {argument : FilePath} {content : ByteArray} : argument ∈ arguments →
      system.entry? argument = some (.file content) → Selects system arguments argument
  | below {argument : FilePath} {children : List (Text × Entry)} {names : List Text} {name : Text}
      {content : ByteArray} : argument ∈ arguments →
      system.entry? argument = some (.folder children) →
      (Entry.folder children).Leads (names ++ [name]) (.file content) →
      FilePath.IsMarkdownName name →
      Selects system arguments (FilePath.joinAll argument (names ++ [name]))

/-- Every folder at or below an argument can be opened by its path. -/
def Opens (system : FileSystem) (arguments : List FilePath) : Prop :=
  ∀ argument ∈ arguments, ∀ entry, system.entry? argument = some entry → entry.Openable argument

/-- Nothing is at the argument, and something at all those before it. -/
def FirstMissing (system : FileSystem) (arguments : List FilePath) (argument : FilePath) : Prop :=
  ∃ before after, arguments = before ++ argument :: after ∧ system.entry? argument = none ∧
    ∀ other ∈ before, (system.entry? other).isSome = true

def filesOf (system : FileSystem) (path : FilePath) : List FilePath :=
  (system.filesAt path).toOption.getD []

section
variable {system : FileSystem} {arguments : List FilePath} {argument : FilePath}

theorem filesAt_of_none (missing : system.entry? argument = none) :
    system.filesAt argument = .error (.notFound argument) := by
  rw [filesAt, missing]

theorem filesAt_of_file {content : ByteArray}
    (found : system.entry? argument = some (.file content)) :
    system.filesAt argument = .ok [argument] := by
  rw [filesAt, found]

theorem filesAt_of_folder {children : List (Text × Entry)}
    (found : system.entry? argument = some (.folder children)) :
    system.filesAt argument = .ok (FilePath.sort (Entry.markdownChildren argument children)) := by
  rw [filesAt, found]
  simp only [scan, found]

theorem filesAt_of_isSome (found : (system.entry? argument).isSome = true) :
    system.filesAt argument = .ok (system.filesOf argument) := by
  rw [filesOf]
  cases here : system.entry? argument with
  | none => simp [here] at found
  | some entry =>
    cases entry with
    | file content =>
      rw [filesAt_of_file here]
      rfl
    | folder children =>
      rw [filesAt_of_folder here]
      rfl

theorem mapM_filesAt (all : ∀ argument ∈ arguments, (system.entry? argument).isSome = true) :
    arguments.mapM system.filesAt = .ok (arguments.map system.filesOf) := by
  induction arguments with
  | nil => rfl
  | cons argument rest ih =>
    rw [List.mapM_cons, filesAt_of_isSome (all argument List.mem_cons_self),
      ih fun other later => all other (List.mem_cons_of_mem _ later)]
    rfl

theorem mapM_filesAt_missing {before after : List FilePath}
    (all : ∀ argument ∈ before, (system.entry? argument).isSome = true)
    (missing : system.entry? argument = none) :
    (before ++ argument :: after).mapM system.filesAt = .error (.notFound argument) := by
  induction before with
  | nil =>
    rw [List.nil_append, List.mapM_cons, filesAt_of_none missing]
    rfl
  | cons other rest ih =>
    rw [List.cons_append, List.mapM_cons, filesAt_of_isSome (all other List.mem_cons_self),
      ih fun later isLater => all later (List.mem_cons_of_mem _ isLater)]
    rfl

theorem collect_of_isSome (all : ∀ argument ∈ arguments, (system.entry? argument).isSome = true) :
    system.collect arguments =
      .ok (FilePath.dropRepeats (FilePath.sort (arguments.flatMap system.filesOf))) := by
  rw [collect, mapM_filesAt all]
  rfl

theorem collect_of_firstMissing (missing : system.FirstMissing arguments argument) :
    system.collect arguments = .error (.notFound argument) := by
  obtain ⟨before, after, rfl, none, all⟩ := missing
  rw [collect, mapM_filesAt_missing all none]

theorem exists_firstMissing
    (missing : ¬ ∀ argument ∈ arguments, (system.entry? argument).isSome = true) :
    ∃ argument, system.FirstMissing arguments argument := by
  induction arguments with
  | nil => exact absurd (fun _ member => absurd member List.not_mem_nil) missing
  | cons first rest ih =>
    cases here : system.entry? first with
    | none => exact ⟨first, [], rest, rfl, here, fun _ member => absurd member List.not_mem_nil⟩
    | some entry =>
      obtain ⟨argument, before, after, rfl, none, all⟩ := ih (by simpa [here] using missing)
      refine ⟨argument, first :: before, after, rfl, none, ?_⟩
      intro other member
      rcases List.mem_cons.mp member with rfl | later
      · rw [here]
        rfl
      · exact all other later

theorem collect_eq_notFound_iff :
    system.collect arguments = .error (.notFound argument) ↔
      system.FirstMissing arguments argument := by
  constructor
  · intro failed
    by_cases all : ∀ argument ∈ arguments, (system.entry? argument).isSome = true
    · rw [collect_of_isSome all] at failed
      cases failed
    · obtain ⟨first, missing⟩ := exists_firstMissing all
      rw [collect_of_firstMissing missing] at failed
      cases failed
      exact missing
  · exact collect_of_firstMissing

theorem mem_filesOf_iff (proper : system.root.Proper) (opens : system.Opens arguments)
    {path : FilePath} :
    path ∈ arguments.flatMap system.filesOf ↔ system.Selects arguments path := by
  rw [List.mem_flatMap]
  constructor
  · rintro ⟨argument, isArgument, member⟩
    cases here : system.entry? argument with
    | none =>
      rw [filesOf, filesAt_of_none here] at member
      cases member
    | some entry =>
      cases entry with
      | file content =>
        rw [filesOf, filesAt_of_file here] at member
        cases List.mem_singleton.mp member
        exact .file isArgument here
      | folder children =>
        rw [filesOf, filesAt_of_folder here] at member
        have below := (mem_sortByKey _).mp member
        rw [Entry.mem_markdownFiles_folder (entry?_proper proper here)
          (opens argument isArgument _ here)] at below
        obtain ⟨names, name, content, leads, rfl, isMarkdown⟩ := below
        exact .below isArgument here leads isMarkdown
  · intro selected
    cases selected with
    | file isArgument here =>
      refine ⟨path, isArgument, ?_⟩
      rw [filesOf, filesAt_of_file here]
      exact List.mem_singleton_self _
    | @below argument children names name content isArgument here leads isMarkdown =>
      refine ⟨argument, isArgument, ?_⟩
      rw [filesOf, filesAt_of_folder here]
      apply (mem_sortByKey _).mpr
      rw [Entry.mem_markdownFiles_folder (entry?_proper proper here)
        (opens argument isArgument _ here)]
      exact ⟨names, name, content, leads, rfl, isMarkdown⟩

end

/-- Files are collected unless an argument leads nowhere, and the first such argument is told. They
are those that the arguments select, in the order of paths and each once, and do not depend on the
order of the arguments or on how often they are given. -/
theorem collect_selects (system : FileSystem) (arguments : List FilePath) :
    (∀ argument, system.collect arguments = .error (.notFound argument) ↔
        system.FirstMissing arguments argument) ∧
      ((∀ argument ∈ arguments, (system.entry? argument).isSome = true) →
        ∃ found, system.collect arguments = .ok found ∧ found.Pairwise FilePath.Before ∧
          (system.root.Proper → system.Opens arguments →
            (∀ path ∈ found, system.Selects arguments path) ∧
            ∀ path, system.Selects arguments path → ∃ kept ∈ found, kept.Same path) ∧
          ∀ others, (∀ argument, argument ∈ others ↔ argument ∈ arguments) →
            ∃ found', system.collect others = .ok found' ∧
              found'.map FilePath.components = found.map FilePath.components) := by
  refine ⟨fun argument => collect_eq_notFound_iff, ?_⟩
  intro all
  refine ⟨_, collect_of_isSome all, FilePath.dropRepeats_sort_before _, ?_, ?_⟩
  · intro proper opens
    have members (path : FilePath) :
        path ∈ arguments.flatMap system.filesOf ↔ system.Selects arguments path :=
      mem_filesOf_iff proper opens
    constructor
    · intro path member
      exact (members path).mp ((mem_sortByKey _).mp (FilePath.mem_of_mem_dropRepeats member))
    · intro path selected
      exact FilePath.exists_same_dropRepeats ((mem_sortByKey _).mpr ((members path).mpr selected))
  · intro others same
    refine ⟨_, collect_of_isSome fun argument member => all argument ((same argument).mp member),
      ?_⟩
    apply FilePath.components_dropRepeats_sort
    intro path
    simp only [List.mem_flatMap, same]

/-- A folder and a folder in it, a path that is written in two ways, a file without extension, and
then the same paths in another order. -/
theorem collect_selects_overlapping :
    let sub : Entry := .folder [("C.MARKDOWN", .file ⟨#[]⟩)]
    let docs : Entry := .folder [("a.md", .file ⟨#[]⟩), ("b.txt", .file ⟨#[]⟩), ("sub", sub)]
    let system : FileSystem := ⟨.folder [("docs", docs), ("n", .file ⟨#[]⟩)], []⟩
    let arguments : List FilePath := ["docs/sub", "n", "docs", "docs//a.md"]
    let others : List FilePath := ["docs", "docs//a.md", "docs", "docs/sub", "n"]
    system.collect ["n", "gone", "lost"] = .error (.notFound "gone") ∧
      (∀ argument ∈ arguments, (system.entry? argument).isSome = true) ∧ system.root.Proper ∧
      system.Opens arguments ∧
      ∃ found found', system.collect arguments = .ok found ∧ found.Pairwise FilePath.Before ∧
        (∃ kept ∈ found, kept.Same "docs/sub/C.MARKDOWN") ∧ (∃ kept ∈ found, kept.Same "n") ∧
        system.collect others = .ok found' ∧
        found'.map FilePath.components = found.map FilePath.components := by
  intro sub docs system arguments others
  have missing : system.FirstMissing ["n", "gone", "lost"] "gone" :=
    ⟨["n"], ["lost"], rfl, rfl, by decide +kernel⟩
  have all : ∀ argument ∈ arguments, (system.entry? argument).isSome = true := by decide +kernel
  have proper : system.root.Proper := by
    simp only [system, docs, sub, Entry.proper_folder, Entry.proper_file, List.forall_mem_cons,
      List.not_mem_nil, false_imp_iff, implies_true, and_true]
    decide +kernel
  have inDocs : system.entry? "docs" = some docs := rfl
  have inSub : system.entry? "docs/sub" = some sub := rfl
  have atFile : system.entry? "n" = some (.file ⟨#[]⟩) := rfl
  have atSame : system.entry? "docs//a.md" = some (.file ⟨#[]⟩) := rfl
  have opens : system.Opens arguments := by
    intro argument member entry found
    simp only [arguments, List.mem_cons, List.not_mem_nil, or_false] at member
    rcases member with rfl | rfl | rfl | rfl
    · cases inSub.symm.trans found
      exact Entry.openable_folder.mpr ⟨by decide +kernel, by simp⟩
    · cases atFile.symm.trans found
      exact Entry.openable_file _
    · cases inDocs.symm.trans found
      have inner : sub.Openable (FilePath.join "docs" "sub") :=
        Entry.openable_folder.mpr ⟨by decide +kernel, by simp⟩
      exact Entry.openable_folder.mpr ⟨by decide +kernel, by simpa using inner⟩
    · cases atSame.symm.trans found
      exact Entry.openable_file _
  have inner : sub.Leads ["C.MARKDOWN"] (.file ⟨#[]⟩) := .down List.mem_cons_self (.here _)
  have leads : docs.Leads (["sub"] ++ ["C.MARKDOWN"]) (.file ⟨#[]⟩) :=
    .down (show ("sub".toList, sub) ∈ _ by simp) inner
  have below : system.Selects arguments (FilePath.joinAll "docs" (["sub"] ++ ["C.MARKDOWN"])) :=
    .below (by simp [arguments]) inDocs leads
      ⟨"MARKDOWN", ⟨"C", by simp, rfl, by decide +kernel⟩, .inr (by decide +kernel)⟩
  obtain ⟨found, isFound, ascending, selection, anyOrder⟩ :=
    (collect_selects system arguments).2 all
  obtain ⟨_, complete⟩ := selection proper opens
  obtain ⟨found', isFound', same⟩ := anyOrder others (by simp [arguments, others]; tauto)
  exact ⟨((collect_selects system _).1 _).mpr missing, all, proper, opens, found, found', isFound,
    ascending, complete _ below, complete _ (.file (by simp [arguments]) atFile), isFound', same⟩

end FileSystem
end BlockLint
