import BlockLint.Files.Tree
import Mathlib.Tactic.SplitIfs

/-!
Files that were written can be read at the same path. The path leads through the same names as
before, since writing a file keeps every folder a folder, and at their end stands the new file.
-/
namespace BlockLint

namespace Entry

theorem lookup_setChild_self (name : Text) (entry : Entry) (children : List (Text × Entry)) :
    (setChild name entry children).lookup name = some entry := by
  induction children with
  | nil => simp [setChild]
  | cons child rest ih =>
    obtain ⟨other, old⟩ := child
    rw [setChild]
    split
    · simp
    · rename_i differ
      have differ : (name == other) = false := by simpa using Ne.symm differ
      rw [List.lookup_cons, differ]
      exact ih

theorem lookup_setChild_of_ne {name other : Text} (differ : other ≠ name) (entry : Entry)
    (children : List (Text × Entry)) :
    (setChild name entry children).lookup other = children.lookup other := by
  induction children with
  | nil => simp [setChild, differ]
  | cons child rest ih =>
    obtain ⟨key, old⟩ := child
    rw [setChild]
    split
    · rename_i same
      have none : (other == name) = false := by simpa using differ
      simp [List.lookup_cons, same, none]
    · rw [List.lookup_cons, List.lookup_cons, ih]

def walk : List Text → Entry → Except SystemError Entry
  | [], entry => .ok entry
  | _ :: _, .file _ => .error .notADirectory
  | name :: rest, .folder children =>
    match (Step.into children name).found with
    | .error e => .error e
    | .ok child => walk rest child

theorem walk_into {children : List (Text × Entry)} {name : Text} {child : Entry}
    (found : (Step.into children name).found = .ok child) (rest : List Text) :
    walk (name :: rest) (.folder children) = walk rest child := by
  rw [walk, found]

theorem walk_concat {names : List Text} {entry : Entry} {children : List (Text × Entry)}
    (walked : walk names entry = .ok (.folder children)) (name : Text) :
    walk (names ++ [name]) entry = (Step.into children name).found := by
  induction names generalizing entry with
  | nil =>
    cases walked
    rw [List.nil_append, walk]
    cases (Step.into children name).found <;> rfl
  | cons first rest ih =>
    cases entry with
    | file content => cases walked
    | folder outer =>
      cases found : (Step.into outer first).found with
      | error e => simp [walk, found] at walked
      | ok child =>
        rw [walk_into found] at walked
        rw [List.cons_append, walk_into found]
        exact ih walked

theorem into_eq_ok_iff {children : List (Text × Entry)} {name : Text} {child : Entry} :
    (Step.into children name).found = .ok child ↔
      FilePath.isNameTooLong name = false ∧ children.lookup name = some child := by
  cases long : FilePath.isNameTooLong name <;> cases looked : children.lookup name <;>
    simp [Step.into, long, looked]

theorem into_eq_noSuchFile_iff {children : List (Text × Entry)} {name : Text} :
    (Step.into children name).found = .error .noSuchFile ↔
      FilePath.isNameTooLong name = false ∧ children.lookup name = none := by
  cases long : FilePath.isNameTooLong name <;> cases looked : children.lookup name <;>
    simp [Step.into, long, looked]

/-- A file may be put at the end of the chain: one is there, or there is nothing in a folder. -/
inductive Fits : List Text → Entry → Prop where
  | here (content : ByteArray) : Fits [] (.file content)
  | new {children : List (Text × Entry)} {name : Text} :
      FilePath.isNameTooLong name = false → children.lookup name = none →
      Fits [name] (.folder children)
  | inside {children : List (Text × Entry)} {name : Text} {rest : List Text} {child : Entry} :
      FilePath.isNameTooLong name = false → children.lookup name = some child →
      Fits rest child → Fits (name :: rest) (.folder children)

theorem fits_of_file {names : List Text} {entry : Entry} {content : ByteArray}
    (walked : walk names entry = .ok (.file content)) : Fits names entry := by
  induction names generalizing entry with
  | nil =>
    cases walked
    exact .here content
  | cons name rest ih =>
    cases entry with
    | file content => cases walked
    | folder children =>
      cases found : (Step.into children name).found with
      | error e => simp [walk, found] at walked
      | ok child =>
        rw [walk_into found] at walked
        obtain ⟨short, looked⟩ := into_eq_ok_iff.mp found
        exact .inside short looked (ih walked)

theorem fits_of_missing {names : List Text} {entry : Entry} {children : List (Text × Entry)}
    {name : Text} (walked : walk names entry = .ok (.folder children))
    (missing : (Step.into children name).found = .error .noSuchFile) :
    Fits (names ++ [name]) entry := by
  induction names generalizing entry with
  | nil =>
    cases walked
    obtain ⟨short, looked⟩ := into_eq_noSuchFile_iff.mp missing
    exact .new short looked
  | cons first rest ih =>
    cases entry with
    | file content => cases walked
    | folder outer =>
      cases found : (Step.into outer first).found with
      | error e => simp [walk, found] at walked
      | ok child =>
        rw [walk_into found] at walked
        obtain ⟨short, looked⟩ := into_eq_ok_iff.mp found
        exact .inside short looked (ih walked)

theorem walk_insert {names : List Text} {entry : Entry} (fits : Fits names entry) (new : Entry) :
    walk names (insert new names entry) = .ok new := by
  induction fits with
  | here content => rfl
  | new short _ =>
    rw [insert, walk_into (into_eq_ok_iff.mpr ⟨short, lookup_setChild_self _ _ _⟩)]
    rfl
  | inside short looked _ ih =>
    rw [insert, walk_into (into_eq_ok_iff.mpr ⟨short, lookup_setChild_self _ _ _⟩), looked]
    exact ih

def KeepsFolders (before after : Entry) : Prop :=
  ∀ names children, walk names before = .ok (.folder children) →
    ∃ others, walk names after = .ok (.folder others)

theorem KeepsFolders.refl (entry : Entry) : KeepsFolders entry entry :=
  fun _ children walked => ⟨children, walked⟩

theorem setChild_keepsFolders {children : List (Text × Entry)} {name : Text} {new : Entry}
    (keeps : ∀ child, children.lookup name = some child → KeepsFolders child new) :
    KeepsFolders (.folder children) (.folder (setChild name new children)) := by
  intro names inner walked
  cases names with
  | nil => exact ⟨_, rfl⟩
  | cons first rest =>
    cases found : (Step.into children first).found with
    | error e => simp [walk, found] at walked
    | ok child =>
      rw [walk_into found] at walked
      obtain ⟨short, looked⟩ := into_eq_ok_iff.mp found
      by_cases same : first = name
      · subst same
        rw [walk_into (into_eq_ok_iff.mpr ⟨short, lookup_setChild_self _ _ _⟩)]
        exact keeps child looked rest inner walked
      · have other := lookup_setChild_of_ne same new children
        rw [walk_into (into_eq_ok_iff.mpr ⟨short, other.trans looked⟩)]
        exact ⟨inner, walked⟩

theorem insert_keepsFolders {names : List Text} {entry : Entry} (fits : Fits names entry)
    (new : Entry) : KeepsFolders entry (insert new names entry) := by
  induction fits with
  | here content =>
    intro names children walked
    cases names <;> cases walked
  | new _ missing =>
    apply setChild_keepsFolders
    intro child looked
    cases missing.symm.trans looked
  | @inside children name rest child short looked fits ih =>
    apply setChild_keepsFolders
    intro other looked'
    cases looked.symm.trans looked'
    rw [looked]
    exact ih

end Entry

/-- Each step was taken in a folder, and found what stands there. -/
def Trail.From (root : Entry) : Trail → Prop
  | [] => True
  | step :: outer =>
    Trail.From root outer ∧ ∃ children, root.walk (Trail.place outer) = .ok (.folder children) ∧
      step = Step.into children step.name

theorem Trail.From.tail {root : Entry} {trail : Trail} (sound : trail.From root) :
    Trail.From root trail.tail := by
  cases trail with
  | nil => exact sound
  | cons step outer => exact sound.1

theorem Trail.place_cons (step : Step) (outer : Trail) :
    place (step :: outer) = place outer ++ [step.name] := by
  simp [place]

namespace FileSystem

theorem found_eq_walk {system : FileSystem} {trail : Trail} (sound : trail.From system.root) :
    system.found trail = system.root.walk trail.place := by
  cases trail with
  | nil => rfl
  | cons step outer =>
    obtain ⟨_, children, isFolder, isStep⟩ := sound
    rw [Trail.place_cons, Entry.walk_concat isFolder, ← isStep]
    rfl

section
variable {system after : FileSystem} (keeps : system.root.KeepsFolders after.root)
include keeps

theorem exists_follow {parts : List Text} {trail trail' last : Trail}
    (sound : trail.From system.root) (sound' : trail'.From after.root)
    (sameNames : trail'.map Step.name = trail.map Step.name)
    (followed : system.follow trail parts = .ok last) :
    last.From system.root ∧ ∃ last' : Trail, after.follow trail' parts = .ok last' ∧
      last'.From after.root ∧ last'.place = last.place := by
  induction parts generalizing trail trail' with
  | nil =>
    cases followed
    exact ⟨sound, trail', rfl, sound', congrArg List.reverse sameNames⟩
  | cons part rest ih =>
    rw [follow] at followed
    split at followed
    · cases followed
    · cases followed
    · rename_i children isFolder
      rw [found_eq_walk sound] at isFolder
      obtain ⟨others, isFolder'⟩ := keeps _ _ isFolder
      have samePlace : trail'.place = trail.place := congrArg List.reverse sameNames
      rw [← samePlace] at isFolder'
      rw [follow, found_eq_walk sound', isFolder']
      cases isPart : Component.ofPart? part with
      | none =>
        simp only [isPart] at followed ⊢
        exact ih sound sound' sameNames followed
      | some component =>
        cases component with
        | named name =>
          simp only [isPart] at followed ⊢
          apply ih ?_ ?_ ?_ followed
          · exact ⟨sound, children, isFolder, rfl⟩
          · exact ⟨sound', others, isFolder', rfl⟩
          · rw [List.map_cons, List.map_cons, sameNames]
            rfl
        | parent =>
          simp only [isPart] at followed ⊢
          apply ih sound.tail sound'.tail ?_ followed
          rw [List.map_tail, List.map_tail, sameNames]
        | _ =>
          simp only [isPart] at followed ⊢
          exact ih sound sound' sameNames followed

theorem exists_locate (sameStart : after.workingDirectory = system.workingDirectory)
    {path : FilePath} {trail : Trail} (located : system.locate path = .ok trail) :
    trail.From system.root ∧ ∃ trail' : Trail, after.locate path = .ok trail' ∧
      trail'.From after.root ∧ trail'.place = trail.place := by
  have start : Trail.From system.root [] := trivial
  have start' : Trail.From after.root [] := trivial
  rw [locate, followFrom] at located ⊢
  rw [sameStart]
  split_ifs at located ⊢ <;> exact exists_follow keeps start start' rfl located

end

theorem fits_of_found {system : FileSystem} {trail : Trail} (sound : trail.From system.root)
    (free : (∃ content, system.found trail = .ok (.file content)) ∨
      system.found trail = .error .noSuchFile) :
    Entry.Fits trail.place system.root := by
  rcases free with ⟨content, isFile⟩ | missing
  · rw [found_eq_walk sound] at isFile
    exact Entry.fits_of_file isFile
  · cases trail with
    | nil => cases missing
    | cons step outer =>
      obtain ⟨_, children, isFolder, isStep⟩ := sound
      rw [Trail.place_cons]
      apply Entry.fits_of_missing isFolder
      rw [← isStep]
      exact missing

/-- What a write does: the path leads to a place where a file may be, and there the text is put. -/
theorem write_eq_ok_iff {system saved : FileSystem} {path : FilePath} {text : Text} :
    system.write path text = .ok saved ↔
      ∃ trail, Text.dropTail (· == '/') path = path ∧ system.locate path = .ok trail ∧
        ((∃ content, system.found trail = .ok (.file content)) ∨
          system.found trail = .error .noSuchFile) ∧
        system.put trail (.file (String.ofList text).toUTF8) = saved := by
  by_cases bare : Text.dropTail (· == '/') path = path
  · rw [write, bare, ← locate]
    cases located : system.locate path with
    | error e => simp
    | ok trail =>
      cases found : system.found trail with
      | ok entry => cases entry <;> simp [found]
      | error e => cases e <;> simp [found]
  · constructor
    · intro written
      rw [write] at written
      split at written
      · cases written
      · simp [bare] at written
    · rintro ⟨_, same, _⟩
      exact absurd same bare

/-- Whether a file can be written does not depend on its text. -/
theorem exists_write {system saved : FileSystem} {path : FilePath} {text : Text}
    (written : system.write path text = .ok saved) (other : Text) :
    ∃ saved, system.write path other = .ok saved := by
  obtain ⟨trail, bare, located, free, _⟩ := write_eq_ok_iff.mp written
  exact ⟨_, write_eq_ok_iff.mpr ⟨trail, bare, located, free, rfl⟩⟩

theorem entry?_write {system saved : FileSystem} {path : FilePath} {text : Text}
    (written : system.write path text = .ok saved) :
    saved.entry? path = some (.file (String.ofList text).toUTF8) := by
  obtain ⟨trail, _, located, free, rfl⟩ := write_eq_ok_iff.mp written
  -- That the trail is sound does not depend on the change, so it is asked of no change first.
  have sound := (exists_locate (.refl _) rfl located).1
  have fits := fits_of_found sound free
  have keeps : system.root.KeepsFolders
      (system.put trail (.file (String.ofList text).toUTF8)).root :=
    Entry.insert_keepsFolders fits _
  obtain ⟨_, trail', located', sound', samePlace⟩ := exists_locate keeps rfl located
  unfold entry?
  simp only [located']
  rw [found_eq_walk sound', samePlace, put, Entry.walk_insert fits]
  rfl

/-- A file can be written at the path once the folders that lead to it are made. -/
def Writable (system : FileSystem) (path : FilePath) : Prop :=
  ∃ prepared written, system.makeParents path = .ok prepared ∧ prepared.write path [] = .ok written

end FileSystem

theorem Entry.read_text (text : Text) :
    (Entry.file (String.ofList text).toUTF8).read = .ok text := by
  have valid : String.fromUTF8? (String.ofList text).toUTF8 = some (String.ofList text) :=
    dif_pos (String.ofList text).isValidUTF8
  rw [read, valid]
  simp

end BlockLint
