import Mathlib.Logic.Function.Basic
import OsConfig.Pmc

/-!
# What becomes of the source files

The file of a source is opened, and so emptied, before the source is looked at.
When the source is refused the file stays as it is then. The files of the
sources behind it are not touched.
-/

namespace OsConfig.Pmc

/-- The contents of files by their paths. -/
abbrev Files := ByteString → Option ByteString

def sourcePath (directory name : ByteString) : ByteString :=
  directory ++ (name ++ bytes ".list")

section Model

variable (libraries : Libraries) (machine : Machine) (leftBehind : ℕ → ByteString)
  (directory : ByteString) (gpgKeys : StringMap)

/-- The loop of `ConfigureSources` with the files that it changes. A text that does not arrive
leaves some text behind. -/
def modifySourceFiles : StringMap → Progress → Files → (Option ℤ × Progress) × Files
  | [], progress, files => ((none, progress), files)
  | (name, packageSource) :: rest, progress, files =>
      let number := progress.steps.length
      let progress := progress.setExecutionState .running .modifyingSources name
      let sourcesFilePath := directory ++ (name ++ bytes ".list")
      let stop := fun status files => ((some status, (progress.carriedOut (.source name) false)
        |>.setExecutionState .failed .modifyingSources name), files)
      let next := fun succeeded files =>
        modifySourceFiles rest (progress.carriedOut (.source name) succeeded) files
      if packageSource = [] then
        if machine.fileExists number sourcesFilePath then
          match machine.remove number sourcesFilePath with
          | some errno => stop errno.value files
          | none => next true (Function.update files sourcesFilePath none)
        else next true files
      else
        -- `std::ofstream output(sourcesFilePath)`
        match machine.create number sourcesFilePath with
        | some errno => stop errno.value files
        | none =>
            let files := Function.update files sourcesFilePath (some [])
            match validateAndUpdatePackageSource libraries packageSource gpgKeys with
            | some updated =>
                let arrives := machine.write number sourcesFilePath (updated ++ [10])
                next arrives (Function.update files sourcesFilePath
                  (some (if arrives then updated ++ [10] else leftBehind number)))
            | none => stop einval files

/-- The files behind `ConfigureSources`; a package list is updated elsewhere. -/
def configureSourceFiles (sources : StringMap) (progress : Progress) (files : Files) : Files :=
  (modifySourceFiles libraries machine leftBehind directory gpgKeys sources progress files).2

end Model

section Loop

variable {libraries : Libraries} {machine : Machine} {leftBehind : ℕ → ByteString}
  {directory : ByteString} {gpgKeys : StringMap}

/-- The loop with files is the loop without them. -/
theorem modifySourceFiles_fst (sources : StringMap) (progress : Progress) (files : Files) :
    (modifySourceFiles libraries machine leftBehind directory gpgKeys sources progress files).1 =
      modifySources libraries machine directory gpgKeys sources progress := by
  induction sources generalizing progress files with
  | nil => rfl
  | cons entry rest ih =>
      rcases entry with ⟨name, packageSource⟩
      rw [modifySourceFiles, modifySources]
      dsimp only
      split
      · split
        · cases machine.remove progress.steps.length (directory ++ (name ++ bytes ".list")) with
          | some errno => rfl
          | none => exact ih _ _
        · exact ih _ _
      · cases machine.create progress.steps.length (directory ++ (name ++ bytes ".list")) with
        | some errno => rfl
        | none =>
            cases validateAndUpdatePackageSource libraries packageSource gpgKeys with
            | some updated => exact ih _ _
            | none => rfl

/-- Sources in front that do not end the loop. -/
theorem modifySourceFiles_append {before : StringMap} {progress : Progress}
    (goesOn : (modifySources libraries machine directory gpgKeys before progress).1 = none)
    (rest : StringMap) (files : Files) :
    modifySourceFiles libraries machine leftBehind directory gpgKeys (before ++ rest) progress files =
      modifySourceFiles libraries machine leftBehind directory gpgKeys rest
        (modifySources libraries machine directory gpgKeys before progress).2
        (modifySourceFiles libraries machine leftBehind directory gpgKeys before progress files).2 := by
  induction before generalizing progress files with
  | nil => rfl
  | cons entry before ih =>
      rcases entry with ⟨name, packageSource⟩
      rw [modifySources] at goesOn
      rw [List.cons_append, modifySourceFiles, modifySources, modifySourceFiles]
      dsimp only at goesOn ⊢
      split at goesOn
      next empty =>
        simp only [if_pos empty]
        split at goesOn
        next found =>
          simp only [if_pos found]
          cases removed : machine.remove progress.steps.length
              (directory ++ (name ++ bytes ".list")) with
          | some errno =>
              rw [removed] at goesOn
              cases goesOn
          | none =>
              rw [removed] at goesOn
              exact ih goesOn _
        next missing =>
          simp only [if_neg missing]
          exact ih goesOn _
      next given =>
        simp only [if_neg given]
        cases created : machine.create progress.steps.length
            (directory ++ (name ++ bytes ".list")) with
        | some errno =>
            rw [created] at goesOn
            cases goesOn
        | none =>
            rw [created] at goesOn
            dsimp only at goesOn ⊢
            cases valid : validateAndUpdatePackageSource libraries packageSource gpgKeys with
            | none =>
                rw [valid] at goesOn
                cases goesOn
            | some updated =>
                rw [valid] at goesOn
                exact ih goesOn _

theorem modifySourceFiles_frame {path : ByteString} (sources : StringMap)
    (other : ∀ entry ∈ sources, path ≠ sourcePath directory entry.1) (progress : Progress)
    (files : Files) :
    (modifySourceFiles libraries machine leftBehind directory gpgKeys sources progress files).2 path =
      files path := by
  induction sources generalizing progress files with
  | nil => rfl
  | cons entry rest ih =>
      rcases entry with ⟨name, packageSource⟩
      have differs : path ≠ directory ++ (name ++ bytes ".list") := other (name, packageSource) (by simp)
      have later : ∀ entry ∈ rest, path ≠ sourcePath directory entry.1 :=
        fun entry mem => other entry (List.mem_cons_of_mem _ mem)
      have kept : ∀ (files : Files) (text : Option ByteString),
          Function.update files (directory ++ (name ++ bytes ".list")) text path = files path :=
        fun files text => Function.update_of_ne differs text files
      rw [modifySourceFiles]
      dsimp only
      split
      · split
        · split
          · rfl
          · rw [ih later, kept]
        · exact ih later _ _
      · split
        · rfl
        · split
          · rw [ih later, kept, kept]
          · exact kept _ _

end Loop

theorem sourcePath_injective (directory : ByteString) : Function.Injective (sourcePath directory) := by
  intro left right same
  exact List.append_cancel_right (List.append_cancel_left same)

section Rejection

variable (libraries : Libraries) (machine : Machine) (directory : ByteString) (gpgKeys : StringMap)

/-- The loop comes to a source that it opens the file of and then refuses. -/
structure RefusesSource (before : StringMap) (source : ByteString × ByteString)
    (progress : Progress) : Prop where
  goesOn : (modifySources libraries machine directory gpgKeys before progress).1 = none
  given : source.2 ≠ []
  opens : machine.create
    (modifySources libraries machine directory gpgKeys before progress).2.steps.length
    (sourcePath directory source.1) = none
  refused : validateAndUpdatePackageSource libraries source.2 gpgKeys = none

variable {libraries machine directory gpgKeys}

variable {before after : StringMap} {source : ByteString × ByteString} {progress : Progress}

theorem modifySourceFiles_refused
    (refuses : RefusesSource libraries machine directory gpgKeys before source progress)
    (leftBehind : ℕ → ByteString) (after : StringMap) (files : Files) :
    modifySourceFiles libraries machine leftBehind directory gpgKeys (before ++ source :: after)
        progress files =
      ((some einval, ((modifySources libraries machine directory gpgKeys before progress).2
          |>.setExecutionState .running .modifyingSources source.1
          |>.carriedOut (.source source.1) false
          |>.setExecutionState .failed .modifyingSources source.1)),
        Function.update (modifySourceFiles libraries machine leftBehind directory gpgKeys before
          progress files).2 (sourcePath directory source.1) (some [])) := by
  rcases source with ⟨name, packageSource⟩
  rw [modifySourceFiles_append refuses.goesOn, modifySourceFiles]
  dsimp only
  rw [if_neg refuses.given]
  have opens := refuses.opens
  unfold sourcePath at opens
  simp only [opens, refuses.refused]
  rfl

section Examples

/-- Libraries that find no match: no text here is a source. -/
def refusingLibraries : Libraries where
  parse := fun _ _ => none
  regexMatch := fun _ _ => none
  regexReplace := fun text _ _ => text

/-- A machine on which all goes well. -/
def willingMachine : Machine where
  canRunOnThisPlatform := true
  fileExists := fun _ _ => true
  remove := fun _ _ => none
  create := fun _ _ => none
  write := fun _ _ _ => true
  runCommand := fun _ _ _ => 0

def sourcesDirectory : ByteString := bytes "/etc/apt/sources.list.d/"

/-- The file of the source `key`, with a text. -/
def oneSourceFile (text : ByteString) : Files :=
  Function.update (fun _ => none) (sourcePath sourcesDirectory (bytes "key")) (some text)

theorem refusesSource_key (progress : Progress) :
    RefusesSource refusingLibraries willingMachine sourcesDirectory [] []
      (bytes "key", bytes "invalid") progress :=
  ⟨rfl, by decide, rfl, rfl⟩

end Examples

end Rejection

end OsConfig.Pmc
