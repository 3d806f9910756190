import OsConfig.Library.Directories
import OsConfig.Pmc.PackageLines

/-!
# Where keys and sources go

The identifiers of keys and sources become parts of paths, and the address of a
key becomes part of a command. Nothing is checked or quoted on the way, so what
is given has to be a plain word by itself, and an identifier has to be the name
of a file.
-/

namespace OsConfig.Pmc

open Directories (LiesDirectlyIn Stays parents)
open ShellWords (IsPlainWord pipeline)

section Commands

variable {sourceUrl keyFilePath : ByteString}

/-- The words of the first command of a download. -/
def curlWords (sourceUrl : ByteString) : List ByteString :=
  [bytes "curl", bytes "-sSL", sourceUrl]

/-- The words of the second command of a download. -/
def gpgWords (keyFilePath : ByteString) : List ByteString :=
  [bytes "gpg", bytes "--dearmor", bytes "--yes", bytes "-o", keyFilePath]

/-- What is in front of the address, and between it and the path. -/
def curlText : ByteString := bytes "curl -sSL "

def gpgText : ByteString := bytes " | gpg --dearmor --yes -o "

theorem notMem_dollar_of_isPlainWord {text : ByteString} (plain : IsPlainWord text) : 36 ∉ text :=
  fun mem => absurd (plain.1.ordinary 36 mem) (by decide)

/-- The command once the address is in it. -/
theorem replace_url (sourceUrl : ByteString) :
    Formats.replace (bytes "$url") sourceUrl commandDownloadGpgKey =
      curlText ++ (Formats.expand curlText (bytes "$url") (gpgText ++ bytes "$destination") sourceUrl ++
        (gpgText ++ bytes "$destination")) := by
  have template : commandDownloadGpgKey =
      curlText ++ (bytes "$url" ++ (gpgText ++ bytes "$destination")) := by
    decide +kernel
  rw [template, Formats.replace_once (by decide) (by decide +kernel) (by decide +kernel)]

theorem downloadCommand_eq_replace (libraries : Libraries) (sourceUrl keyFilePath : ByteString) :
    downloadCommand libraries.withRegex sourceUrl keyFilePath =
      Formats.replace (bytes "$destination") keyFilePath
        (Formats.replace (bytes "$url") sourceUrl commandDownloadGpgKey) := rfl

/-- The text of the download when nothing is replaced in what was put in. -/
def plainCommand (sourceUrl keyFilePath : ByteString) : ByteString :=
  curlText ++ (sourceUrl ++ (gpgText ++ keyFilePath))

theorem pipeline_plainCommand_iff :
    pipeline (plainCommand sourceUrl keyFilePath) =
        some [curlWords sourceUrl, gpgWords keyFilePath] ↔
      IsPlainWord sourceUrl ∧ IsPlainWord keyFilePath := by
  have front : curlText = bytes "curl" ++ ([32] ++ (bytes "-sSL" ++ [32])) := by decide
  have middle : gpgText = 32 :: 124 :: 32 :: (bytes "gpg" ++ ([32] ++ (bytes "--dearmor" ++ ([32] ++
      (bytes "--yes" ++ ([32] ++ (bytes "-o" ++ [32]))))))) := by
    decide
  have written : plainCommand sourceUrl keyFilePath =
      List.intercalate [32] (curlWords sourceUrl) ++
        32 :: 124 :: 32 :: List.intercalate [32] (gpgWords keyFilePath) := by
    rw [plainCommand, front, middle]
    simp [curlWords, gpgWords, List.intercalate_cons_cons]
  have curl : IsPlainWord (bytes "curl") ∧ IsPlainWord (bytes "-sSL") := by decide +kernel
  have gpg : IsPlainWord (bytes "gpg") ∧ IsPlainWord (bytes "--dearmor") ∧
      IsPlainWord (bytes "--yes") ∧ IsPlainWord (bytes "-o") := by
    decide +kernel
  rw [written, curlWords, gpgWords,
    ShellWords.pipeline_intercalate_iff (by decide +kernel) (by decide +kernel)]
  simp [curl, gpg]

/-- The first dollar sign of a pattern is found where there is none in front of it. -/
theorem search_destination {front : ByteString} (plain : 36 ∉ front) :
    Substrings.search (bytes "$destination") (front ++ (bytes "$destination" ++ [])) =
      some (bytes "$destination" ++ []) := by
  have pattern : bytes "$destination" = 36 :: bytes "destination" := by decide
  rw [pattern, Substrings.search_append_of_notMem plain]
  exact Substrings.search_of_prefix (List.prefix_append _ _)

theorem downloadCommand_eq (libraries : Libraries) (url_plain : 36 ∉ sourceUrl)
    (path_plain : 36 ∉ keyFilePath) :
    downloadCommand libraries.withRegex sourceUrl keyFilePath =
      plainCommand sourceUrl keyFilePath := by
  have front : 36 ∉ curlText ++ (sourceUrl ++ gpgText) := by
    have fixed : 36 ∉ curlText ∧ 36 ∉ gpgText := by decide
    simp [fixed, url_plain]
  have parts : curlText ++ (sourceUrl ++ (gpgText ++ bytes "$destination")) =
      curlText ++ (sourceUrl ++ gpgText) ++ (bytes "$destination" ++ []) := by
    simp
  rw [downloadCommand_eq_replace, replace_url, Formats.expand_of_notMem url_plain, parts,
    Formats.replace_once (by decide) (search_destination front) (by decide),
    Formats.expand_of_notMem path_plain, plainCommand]
  simp

/-- The letters of the words that are always there. -/
def fixedLetters : ByteString := bytes "curl-sSLgpg--dearmor--yes-o"

/-- No letter of the words is lost, and none of them comes from elsewhere. -/
theorem count_of_download {text : ByteString}
    (reads : pipeline text = some [curlWords sourceUrl, gpgWords keyFilePath]) (kept : UInt8)
    (isKept : ShellWords.isKept kept = true) (noBar : kept ≠ 124) :
    text.count kept = fixedLetters.count kept + sourceUrl.count kept + keyFilePath.count kept := by
  have letters : fixedLetters = bytes "curl" ++ (bytes "-sSL" ++ (bytes "gpg" ++ (bytes "--dearmor" ++
      (bytes "--yes" ++ bytes "-o")))) := by
    decide
  rw [ShellWords.count_of_pipeline isKept noBar reads, letters]
  simp only [curlWords, gpgWords, List.map_cons, List.map_nil, List.sum_cons, List.sum_nil,
    List.count_append]
  omega

/-- What can be put in for an address has the letter `r`. -/
theorem tells_url : Formats.Tells 114 curlText (bytes "$url") (gpgText ++ bytes "$destination") := by
  unfold Formats.Tells
  decide +kernel

/-- What can be put in for a path has the letter `d`. -/
theorem tells_destination (url : ByteString) :
    Formats.Tells 100 (curlText ++ (url ++ gpgText)) (bytes "$destination") [] := by
  have inside : 100 ∈ gpgText := by decide
  refine ⟨?_, by decide, .inl rfl⟩
  simp [inside]

theorem downloadCommand_eq_of_pipeline (libraries : Libraries) {id : ByteString}
    (reads : pipeline (downloadCommand libraries.withRegex sourceUrl (generateGpgKeyPath id)) =
      some [curlWords sourceUrl, gpgWords (generateGpgKeyPath id)]) :
    downloadCommand libraries.withRegex sourceUrl (generateGpgKeyPath id) =
      plainCommand sourceUrl (generateGpgKeyPath id) := by
  have pattern : bytes "$destination" = 36 :: bytes "destination" := by decide
  have counts := count_of_download reads
  have slash : 0 < (generateGpgKeyPath id).count 47 := by
    refine List.count_pos_iff.mpr ?_
    have folder : 47 ∈ keysFolderPath := by decide
    simp [generateGpgKeyPath, folder]
  generalize generateGpgKeyPath id = path at *
  rw [downloadCommand_eq_replace, replace_url] at *
  have url_letters : ∀ letter, Formats.IsPlain letter → _ := fun letter plain =>
    Formats.count_le_expand plain curlText (bytes "$url") (gpgText ++ bytes "$destination") sourceUrl
  have url_dollars : _ → _ ≤ sourceUrl.count 36 :=
    Formats.dollars_le_of_count (by decide) tells_url
  have url_same : _ → sourceUrl.count 36 ≤ _ → _ :=
    Formats.expand_eq_of_count (by decide) tells_url
  generalize Formats.expand curlText (bytes "$url") (gpgText ++ bytes "$destination")
    sourceUrl = url at *
  have ends : bytes "$destination" <:+ curlText ++ (url ++ (gpgText ++ bytes "$destination")) :=
    ⟨curlText ++ (url ++ gpgText), by simp⟩
  rw [pattern] at ends
  obtain ⟨before, behind, parts, finds, last⟩ :=
    Substrings.search_of_suffix_cases (by decide) ends
  rw [← pattern] at parts finds last
  rw [parts] at finds
  rcases last with rfl | again
  · have before_eq : before = curlText ++ (url ++ gpgText) := by
      refine (List.append_left_inj (bytes "$destination")).mp ?_
      rw [List.append_assoc, List.append_assoc, parts, List.append_nil]
    subst before_eq
    have text_eq : Formats.replace (bytes "$destination") path
        (curlText ++ (url ++ (gpgText ++ bytes "$destination"))) =
          curlText ++ (url ++ gpgText) ++ (Formats.expand (curlText ++ (url ++ gpgText))
            (bytes "$destination") [] path ++ []) := by
      rw [parts, Formats.replace_once (by decide) finds (by decide)]
    rw [text_eq] at counts ⊢
    have path_letters : ∀ letter, Formats.IsPlain letter → _ := fun letter plain =>
      Formats.count_le_expand plain (curlText ++ (url ++ gpgText)) (bytes "$destination") [] path
    have path_dollars : _ → _ ≤ path.count 36 :=
      Formats.dollars_le_of_count (by decide) (tells_destination url)
    have path_same : _ → path.count 36 ≤ _ → _ :=
      Formats.expand_eq_of_count (by decide) (tells_destination url)
    generalize Formats.expand (curlText ++ (url ++ gpgText)) (bytes "$destination") [] path = put
      at *
    simp only [List.count_append, List.count_nil, Nat.add_zero] at counts
    have fixed : ∀ kept ∈ ([36, 100, 114] : List UInt8),
        fixedLetters.count kept = curlText.count kept + gpgText.count kept := by
      decide +kernel
    have letters := counts 114 (by decide) (by decide)
    have dees := counts 100 (by decide) (by decide)
    have dollars := counts 36 (by decide) (by decide)
    rw [fixed _ (by simp)] at letters dees dollars
    have url_more := url_letters 114 (by decide)
    have url_more' := url_letters 100 (by decide)
    have path_more := path_letters 114 (by decide)
    have path_more' := path_letters 100 (by decide)
    have url_fewer := url_dollars (by omega)
    have path_fewer := path_dollars (by omega)
    rw [url_same (by omega) (by omega), path_same (by omega) (by omega), plainCommand]
    simp
  · have twice : _ + 2 * path.count 47 ≤ _ :=
      Formats.count_replace_of_twice (by decide) (by decide) (by decide) finds again.isInfix
    rw [← parts, counts 47 (by decide) (by decide)] at twice
    have inside : url.count 47 ≤ (curlText ++ (url ++ (gpgText ++ bytes "$destination"))).count 47 := by
      simp only [List.count_append]
      omega
    have fixed : fixedLetters.count 47 = 0 := by decide
    have more := url_letters 47 (by decide)
    omega

theorem pipeline_downloadCommand_iff (libraries : Libraries) {id : ByteString} :
    pipeline (downloadCommand libraries.withRegex sourceUrl (generateGpgKeyPath id)) =
        some [curlWords sourceUrl, gpgWords (generateGpgKeyPath id)] ↔
      IsPlainWord sourceUrl ∧ IsPlainWord (generateGpgKeyPath id) := by
  constructor
  · intro reads
    rw [downloadCommand_eq_of_pipeline libraries reads] at reads
    exact pipeline_plainCommand_iff.mp reads
  · intro plain
    rw [downloadCommand_eq libraries (notMem_dollar_of_isPlainWord plain.1)
      (notMem_dollar_of_isPlainWord plain.2)]
    exact pipeline_plainCommand_iff.mpr plain

end Commands

section Actions

/-- What the loops do to the files of the machine. -/
inductive Action where
  | downloads (sourceUrl keyFilePath command : ByteString)
  | removes (path : ByteString)
  | creates (path : ByteString)

variable (libraries : Libraries) (machine : Machine)

/-- `DownloadGpgKeys` with what it does. -/
def downloadKeys : StringMap → ℤ → Progress → (ℤ × Progress) × List Action
  | [], status, progress => ((status, progress), [])
  | (key, sourceUrl) :: rest, status, progress =>
      let number := progress.steps.length
      let progress := progress.setExecutionState .running .downloadingGpgKeys key
      let keyFilePath := generateGpgKeyPath key
      if sourceUrl = [] then
        if machine.fileExists number keyFilePath then
          match machine.remove number keyFilePath with
          | some errno =>
              downloadKeys rest errno.value ((progress.carriedOut (.gpgKey key) false)
                |>.setExecutionState .failed .modifyingSources key)
          | none =>
              let later := downloadKeys rest status (progress.carriedOut (.gpgKey key) true)
              (later.1, .removes keyFilePath :: later.2)
        else downloadKeys rest status (progress.carriedOut (.gpgKey key) true)
      else
        let command := downloadCommand libraries sourceUrl keyFilePath
        let status := machine.runCommand number command false
        let later :=
          if status ≠ 0 then
            downloadKeys rest status ((progress.carriedOut (.gpgKey key) false)
              |>.setExecutionState .failed .downloadingGpgKeys key)
          else downloadKeys rest status (progress.carriedOut (.gpgKey key) true)
        (later.1, .downloads sourceUrl keyFilePath command :: later.2)

/-- The loop of `ConfigureSources` with what it does. -/
def placeSources (directory : ByteString) (gpgKeys : StringMap) :
    StringMap → Progress → (Option ℤ × Progress) × List Action
  | [], progress => ((none, progress), [])
  | (name, packageSource) :: rest, progress =>
      let number := progress.steps.length
      let progress := progress.setExecutionState .running .modifyingSources name
      let sourcesFilePath := directory ++ (name ++ bytes ".list")
      let stop := fun status actions => ((some status, (progress.carriedOut (.source name) false)
        |>.setExecutionState .failed .modifyingSources name), actions)
      let next := fun succeeded actions =>
        let later :=
          placeSources directory gpgKeys rest (progress.carriedOut (.source name) succeeded)
        (later.1, actions ++ later.2)
      if packageSource = [] then
        if machine.fileExists number sourcesFilePath then
          match machine.remove number sourcesFilePath with
          | some errno => stop errno.value []
          | none => next true [.removes sourcesFilePath]
        else next true []
      else
        match machine.create number sourcesFilePath with
        | some errno => stop errno.value []
        | none =>
            match validateAndUpdatePackageSource libraries packageSource gpgKeys with
            | some updated =>
                next (machine.write number sourcesFilePath (updated ++ [10]))
                  [.creates sourcesFilePath]
            | none => stop einval [.creates sourcesFilePath]

variable {libraries} {machine}

end Actions

section Confinement

/-- A download is the pipeline of two commands, and what is written or removed is in the folder. -/
def IsConfined (folder : ByteString) : Action → Prop
  | .downloads sourceUrl keyFilePath command =>
      pipeline command = some [curlWords sourceUrl, gpgWords keyFilePath] ∧
        LiesDirectlyIn folder keyFilePath
  | .removes path => LiesDirectlyIn folder path
  | .creates path => LiesDirectlyIn folder path

/-- An identifier with nothing in front of its last name but names that stay. -/
def StaysInFolder (id : ByteString) : Prop :=
  ∀ name ∈ parents id, Stays name

instance (id : ByteString) : Decidable (StaysInFolder id) :=
  inferInstanceAs (Decidable (∀ _ ∈ _, _))

/-- The sources up to the first one that is refused. -/
def sourcesUntilRefused (libraries : Libraries) (gpgKeys : StringMap) : StringMap → StringMap
  | [] => []
  | (name, packageSource) :: rest =>
      if packageSource ≠ [] ∧
          (validateAndUpdatePackageSource libraries packageSource gpgKeys).isNone then
        [(name, packageSource)]
      else (name, packageSource) :: sourcesUntilRefused libraries gpgKeys rest

def keysFolder : ByteString := bytes "/usr/share/keyrings"

theorem liesDirectlyIn_iff_staysInFolder {folder id ending : ByteString} (plain : 47 ∉ ending) :
    LiesDirectlyIn folder (folder ++ 47 :: (id ++ ending)) ↔ StaysInFolder id := by
  rw [Directories.liesDirectlyIn_iff, Directories.parents_append_of_notMem plain, StaysInFolder]

theorem liesDirectlyIn_keyPath_iff {id : ByteString} :
    LiesDirectlyIn keysFolder (generateGpgKeyPath id) ↔ StaysInFolder id := by
  have folder : keysFolderPath = keysFolder ++ [47] := by decide
  have path_eq : generateGpgKeyPath id = keysFolder ++ 47 :: (id ++ bytes ".gpg") := by
    rw [generateGpgKeyPath, folder]
    simp
  rw [path_eq, liesDirectlyIn_iff_staysInFolder (by decide)]

theorem liesDirectlyIn_sourcePath_iff {folder name : ByteString} :
    LiesDirectlyIn folder (folder ++ [47] ++ (name ++ bytes ".list")) ↔ StaysInFolder name := by
  rw [List.append_assoc, List.singleton_append, liesDirectlyIn_iff_staysInFolder (by decide)]

variable {libraries : Libraries}

/-- What is done for a key, where all goes well. -/
def keyAction (libraries : Libraries) (key : ByteString × ByteString) : Action :=
  if key.2 = [] then .removes (generateGpgKeyPath key.1)
  else .downloads key.2 (generateGpgKeyPath key.1)
    (downloadCommand libraries key.2 (generateGpgKeyPath key.1))

/-- What is done for a source, where all goes well. -/
def sourceAction (directory : ByteString) (source : ByteString × ByteString) : Action :=
  if source.2 = [] then .removes (directory ++ (source.1 ++ bytes ".list"))
  else .creates (directory ++ (source.1 ++ bytes ".list"))

theorem exists_key_of_mem {machine : Machine} {gpgKeys : StringMap} {status : ℤ}
    {progress : Progress} {action : Action}
    (mem : action ∈ (downloadKeys libraries machine gpgKeys status progress).2) :
    ∃ key ∈ gpgKeys, action = keyAction libraries key := by
  induction gpgKeys generalizing status progress with
  | nil => cases mem
  | cons entry rest ih =>
      rcases entry with ⟨id, sourceUrl⟩
      have behind : ∀ status progress,
          action ∈ (downloadKeys libraries machine rest status progress).2 →
            ∃ key ∈ (id, sourceUrl) :: rest, action = keyAction libraries key := by
        intro status progress mem
        obtain ⟨other, other_mem, rfl⟩ := ih mem
        exact ⟨other, List.mem_cons_of_mem _ other_mem, rfl⟩
      rw [downloadKeys] at mem
      dsimp only at mem
      split at mem
      next empty =>
        split at mem
        · split at mem
          · exact behind _ _ mem
          · rcases List.mem_cons.mp mem with here | later
            · exact ⟨_, List.mem_cons_self, by rw [here, keyAction, if_pos empty]⟩
            · exact behind _ _ later
        · exact behind _ _ mem
      next given =>
        rcases List.mem_cons.mp mem with here | later
        · exact ⟨_, List.mem_cons_self, by rw [here, keyAction, if_neg given]⟩
        · split at later
          · exact behind _ _ later
          · exact behind _ _ later

/-- Where all goes well, something is done for every key. -/
theorem keyAction_mem {gpgKeys : StringMap} {status : ℤ} {progress : Progress}
    {key : ByteString × ByteString} (mem : key ∈ gpgKeys) :
    keyAction libraries key ∈ (downloadKeys libraries willingMachine gpgKeys status progress).2 := by
  induction gpgKeys generalizing status progress with
  | nil => cases mem
  | cons entry rest ih =>
      rcases entry with ⟨first, sourceUrl⟩
      rw [downloadKeys]
      simp only [willingMachine, if_true, ne_eq, not_true_eq_false, if_false]
      rcases List.mem_cons.mp mem with rfl | later
      · unfold keyAction
        split
        · exact List.mem_cons_self
        · exact List.mem_cons_self
      · split
        · exact List.mem_cons_of_mem _ (ih later)
        · exact List.mem_cons_of_mem _ (ih later)

theorem sourcesUntilRefused_cons {gpgKeys rest : StringMap} {name packageSource : ByteString}
    (accepted : packageSource = [] ∨
      (validateAndUpdatePackageSource libraries packageSource gpgKeys).isSome) :
    sourcesUntilRefused libraries gpgKeys ((name, packageSource) :: rest) =
      (name, packageSource) :: sourcesUntilRefused libraries gpgKeys rest := by
  rw [sourcesUntilRefused, if_neg]
  rintro ⟨given, refused⟩
  rw [Option.isNone_iff_eq_none] at refused
  simp [given, refused] at accepted

theorem sourcesUntilRefused_head (gpgKeys rest : StringMap) (name packageSource : ByteString) :
    (name, packageSource) ∈ sourcesUntilRefused libraries gpgKeys ((name, packageSource) :: rest) := by
  rw [sourcesUntilRefused]
  split <;> simp

theorem exists_source_of_mem {machine : Machine} {directory : ByteString}
    {gpgKeys sources : StringMap} {progress : Progress} {action : Action}
    (mem : action ∈ (placeSources libraries machine directory gpgKeys sources progress).2) :
    ∃ source ∈ sourcesUntilRefused libraries gpgKeys sources,
      action = sourceAction directory source := by
  induction sources generalizing progress with
  | nil => cases mem
  | cons entry rest ih =>
      rcases entry with ⟨name, packageSource⟩
      have here : (name, packageSource) ∈ sourcesUntilRefused libraries gpgKeys _ :=
        sourcesUntilRefused_head gpgKeys rest name packageSource
      have behind : ∀ progress, packageSource = [] ∨
          (validateAndUpdatePackageSource libraries packageSource gpgKeys).isSome →
          action ∈ (placeSources libraries machine directory gpgKeys rest progress).2 →
            ∃ source ∈ sourcesUntilRefused libraries gpgKeys ((name, packageSource) :: rest),
              action = sourceAction directory source := by
        intro progress accepted mem
        obtain ⟨other, other_mem, rfl⟩ := ih mem
        rw [sourcesUntilRefused_cons accepted]
        exact ⟨other, List.mem_cons_of_mem _ other_mem, rfl⟩
      rw [placeSources] at mem
      dsimp only at mem
      split at mem
      next empty =>
        split at mem
        · split at mem
          · cases mem
          · rcases List.mem_append.mp mem with now | later
            · rw [List.mem_singleton.mp now]
              exact ⟨_, here, by rw [sourceAction, if_pos empty]⟩
            · exact behind _ (.inl empty) later
        · exact behind _ (.inl empty) mem
      next given =>
        have created : Action.creates (directory ++ (name ++ bytes ".list")) =
            sourceAction directory (name, packageSource) := by
          rw [sourceAction, if_neg given]
        split at mem
        · cases mem
        · split at mem
          next valid =>
            rcases List.mem_append.mp mem with now | later
            · exact ⟨_, here, by rw [List.mem_singleton.mp now, created]⟩
            · exact behind _ (.inr (by rw [valid]; rfl)) later
          · exact ⟨_, here, by rw [List.mem_singleton.mp mem, created]⟩

/-- Where all goes well, something is done for every source up to the first that is refused. -/
theorem sourceAction_mem {directory : ByteString} {gpgKeys sources : StringMap} {progress : Progress}
    {source : ByteString × ByteString}
    (mem : source ∈ sourcesUntilRefused libraries gpgKeys sources) :
    sourceAction directory source ∈
      (placeSources libraries willingMachine directory gpgKeys sources progress).2 := by
  induction sources generalizing progress with
  | nil => cases mem
  | cons entry rest ih =>
      rcases entry with ⟨name, packageSource⟩
      rw [placeSources]
      simp only [willingMachine, if_true]
      split
      next empty =>
        rw [sourcesUntilRefused_cons (.inl empty)] at mem
        rcases List.mem_cons.mp mem with rfl | later
        · rw [sourceAction, if_pos empty]
          exact List.mem_append_left _ (by simp)
        · exact List.mem_append_right _ (ih later)
      next given =>
        split
        next valid =>
          rw [sourcesUntilRefused_cons (.inr (by rw [valid]; rfl))] at mem
          rcases List.mem_cons.mp mem with rfl | later
          · rw [sourceAction, if_neg given]
            exact List.mem_append_left _ (by simp)
          · exact List.mem_append_right _ (ih later)
        next refused =>
          rw [sourcesUntilRefused, if_pos ⟨given, by rw [refused]; rfl⟩, List.mem_singleton] at mem
          rw [mem, sourceAction, if_neg given]
          exact List.mem_singleton_self _

theorem isConfined_keyAction_iff {key : ByteString × ByteString} :
    IsConfined keysFolder (keyAction libraries.withRegex key) ↔
      (key.2 ≠ [] → IsPlainWord key.2 ∧ IsPlainWord (generateGpgKeyPath key.1)) ∧
        StaysInFolder key.1 := by
  unfold keyAction
  split
  next empty => simp [IsConfined, empty, liesDirectlyIn_keyPath_iff]
  next given =>
    rw [IsConfined, pipeline_downloadCommand_iff, liesDirectlyIn_keyPath_iff]
    simp [given]

theorem isConfined_sourceAction_iff {folder : ByteString} {source : ByteString × ByteString} :
    IsConfined folder (sourceAction (folder ++ [47]) source) ↔ StaysInFolder source.1 := by
  unfold sourceAction
  split
  · exact liesDirectlyIn_sourcePath_iff
  · exact liesDirectlyIn_sourcePath_iff

/-- What is done for a desired state is confined on every machine, if its addresses and the paths
of their keys are plain words and its identifiers are names of files. -/
theorem isConfined_iff (libraries : Libraries) (desiredState : DesiredState) (folder : ByteString) :
    (∀ machine progress,
      (∀ action ∈ (downloadKeys libraries.withRegex machine desiredState.gpgKeys 0 progress).2,
          IsConfined keysFolder action) ∧
        ∀ action ∈ (placeSources libraries.withRegex machine (folder ++ [47]) desiredState.gpgKeys
            desiredState.sources progress).2, IsConfined folder action) ↔
      (∀ key ∈ desiredState.gpgKeys,
        (key.2 ≠ [] → IsPlainWord key.2 ∧ IsPlainWord (generateGpgKeyPath key.1)) ∧
          StaysInFolder key.1) ∧
        ∀ source ∈ sourcesUntilRefused libraries.withRegex desiredState.gpgKeys desiredState.sources,
          StaysInFolder source.1 := by
  constructor
  · intro confined
    have here := confined willingMachine ⟨.initial, []⟩
    refine ⟨fun key mem => ?_, fun source mem => ?_⟩
    · exact isConfined_keyAction_iff.mp (here.1 _ (keyAction_mem mem))
    · exact isConfined_sourceAction_iff.mp (here.2 _ (sourceAction_mem mem))
  · rintro ⟨keys, sources⟩ machine progress
    refine ⟨fun action mem => ?_, fun action mem => ?_⟩
    · obtain ⟨key, key_mem, rfl⟩ := exists_key_of_mem mem
      exact isConfined_keyAction_iff.mpr (keys key key_mem)
    · obtain ⟨source, source_mem, rfl⟩ := exists_source_of_mem mem
      exact isConfined_sourceAction_iff.mpr (sources source source_mem)

/-- A document that gives one key, with a command behind its address. -/
def keyDocument : JsonObject :=
  [(gpgKeysName, .object [(bytes "key", .string (bytes "https://host/key;reboot"))])]

/-- A command behind an address is run. -/
theorem isConfined_keyDocument :
    (deserializeDesiredState keyDocument ⟨.initial, []⟩).1 = 0 ∧
      ∃ action ∈ (downloadKeys refusingLibraries.withRegex willingMachine
          (deserializeDesiredState keyDocument ⟨.initial, []⟩).2.1.gpgKeys 0 ⟨.initial, []⟩).2,
        ¬IsConfined keysFolder action := by
  have accepted : (deserializeDesiredState keyDocument ⟨.initial, []⟩).1 = 0 ∧
      (bytes "key", bytes "https://host/key;reboot") ∈
        (deserializeDesiredState keyDocument ⟨.initial, []⟩).2.1.gpgKeys := by
    decide +kernel
  refine ⟨accepted.1, _, keyAction_mem accepted.2, ?_⟩
  rw [isConfined_keyAction_iff]
  intro confined
  have plain := (confined.1 (by decide)).1
  revert plain
  decide +kernel

end Confinement

end OsConfig.Pmc
