import OsConfig.Common.FileUtils.Editing
import OsConfig.Common.PassUtils.Lockout.Remediation

/-!
# Setting up the lockout again

Done again, the remediation finds its own line in a PAM file and its own values
in `faillock.conf`, and puts them there once more. Only of the two lines that it
writes for `pam_tally.so` it finds one, so the other one is there again each time.
-/

namespace OsConfig.CommonUtils

section PamFiles

variable {content pamSo line : ByteString} {fs fs' : FileSystem}

theorem faillock_line_single : ∀ path ∈ pamModulePaths pamFaillockSo,
    fgetsLines (pamFailLockLine path) = [pamFailLockLine path] ∧
      pamFaillockSo <:+: pamFailLockLine path ∧ (pamFailLockLine path).head? ≠ some 35 := by
  simp only [pamModulePaths, pamFailLockLine, pamFaillockSo]
  repeat rw [bytes_ofList]
  decide +kernel

theorem tally2_line_single : ∀ path ∈ pamModulePaths pamTally2So,
    fgetsLines (pamTally2Line path) = [pamTally2Line path] ∧
      pamTally2So <:+: pamTally2Line path ∧ (pamTally2Line path).head? ≠ some 35 := by
  simp only [pamModulePaths, pamTally2Line, pamTally2So]
  repeat rw [bytes_ofList]
  decide +kernel

theorem tally_deny_lines : ∀ path ∈ pamModulePaths pamTallySo, ∀ path2 ∈ pamModulePaths pamDenySo,
    (fgetsLines (pamTallyDenyLine path path2)).map (isMarked pamTallySo 35) = [true, false] ∧
      ∀ line ∈ fgetsLines (pamTallyDenyLine path path2), ¬pamFaillockSo <:+: line := by
  simp only [pamModulePaths, pamTallyDenyLine, pamTallySo, pamDenySo, pamFaillockSo]
  repeat rw [bytes_ofList]
  decide +kernel

theorem isReplacement_of_single {pair : ByteString × ByteString} (mem : pair ∈ lockoutLines)
    (single : fgetsLines pair.2 = [pair.2] ∧ pair.1 <:+: pair.2 ∧ pair.2.head? ≠ some 35) :
    IsReplacement pair.1 pair.2 35 := by
  rcases lockoutLines_spec mem with ⟨known, -, -, text, -⟩
  rcases lockoutModules_plain _ known with ⟨some_module, plain⟩
  have line : IsTextLine pair.2 := text.isTextLine (by rw [single.1]; exact List.mem_singleton_self _)
  exact ⟨some_module, plain, line, single.2.1, single.2.2⟩

/-- The remediation writes one line, or the two for `pam_tally.so`. -/
theorem isReplacement_or_tally {pair : ByteString × ByteString} (mem : pair ∈ lockoutLines) :
    IsReplacement pair.1 pair.2 35 ∨
      ∃ path ∈ pamModulePaths pamTallySo, ∃ path2 ∈ pamModulePaths pamDenySo,
        pair = (pamTallySo, pamTallyDenyLine path path2) := by
  have kinds := mem
  rw [lockoutLines, List.mem_append, List.mem_append, List.mem_map, List.mem_map,
    List.mem_flatMap] at kinds
  rcases kinds with (⟨path, found, rfl⟩ | ⟨path, found, rfl⟩) | ⟨path, found, inside⟩
  · exact .inl (isReplacement_of_single mem (faillock_line_single path found))
  · exact .inl (isReplacement_of_single mem (tally2_line_single path found))
  · obtain ⟨path2, found2, rfl⟩ := List.mem_map.mp inside
    exact .inr ⟨path, found, path2, found2, rfl⟩

theorem editedPamFile_idem (noNul : 0 ∉ content) (new : IsReplacement pamSo line 35) :
    editedPamFile (some (pamSo, line)) (editedPamFile (some (pamSo, line)) content) =
      editedPamFile (some (pamSo, line)) content := by
  have stable : IsStable pamSo line 35 (editedPamFile (some (pamSo, line)) content) := by
    rw [editedPamFile]
    cases marked : (fgetsLines content).any (isMarked pamSo 35) with
    | true => exact isStable_replaceFirst noNul new marked
    | false => exact isStable_appended noNul new marked
  generalize editedPamFile (some (pamSo, line)) content = edited at *
  rw [editedPamFile, if_pos stable.marked, stable.same]

theorem noNul_editedPamFile {chosen : Option (ByteString × ByteString)}
    (known : ∀ pair ∈ chosen, pair ∈ lockoutLines) (noNul : 0 ∉ content) :
    0 ∉ editedPamFile chosen content := by
  cases chosen with
  | none => exact noNul
  | some pair =>
      rcases lockoutLines_spec (known pair rfl) with ⟨-, -, -, text, -⟩
      rw [editedPamFile]
      split
      · intro nul
        rcases List.mem_flatten.mp nul with ⟨line, mem, inside⟩
        rcases mem_of_mem_replaceFirst mem with rfl | old
        · exact text.noNul inside
        · exact (isPiece_of_mem_fgetsLines noNul old).noNul inside
      · rw [appended, List.mem_append, List.mem_append, not_or, not_or]
        refine ⟨⟨noNul, ?_⟩, text.noNul⟩
        split <;> simp

end PamFiles

section Runs

variable {fs fs' final : FileSystem} {random random' : ℕ → ℕ} {install : FileSystem → FileSystem}

/-- The files that the remediation writes. -/
def lockoutFiles : List ByteString :=
  etcSecurityFaillockConf :: pamConfigurations

/-- The files that tell whether a module is installed. -/
def lockoutModulePaths : List ByteString :=
  [pamFaillockSo, pamTally2So, pamTallySo, pamDenySo].flatMap pamModulePaths

/-- A run behind the installation of the packages. -/
def settleLockout (random : ℕ → ℕ) (fs : FileSystem) : ℤ × FileSystem :=
  if ModernModel fs then
    setLockoutForFailedPasswordAttemptsViaFaillockConf etcSecurityFaillockConf 3 900 random fs
  else setLockoutInLegacyModel random fs

/-- What a run makes of a PAM file. -/
def lockedPamFile (fs : FileSystem) (content : ByteString) : ByteString :=
  if ModernModel fs then content else editedPamFile (pamModuleForLockout fs) content

/-- What a run that succeeds makes of the files that it looks at. -/
structure Ran (fs final : FileSystem) : Prop where
  conf : final.read etcSecurityFaillockConf =
    (fs.read etcSecurityFaillockConf).map fun content => lockedConf content.cString
  pamFiles : ∀ pamFile ∈ pamFiles,
    final.read pamFile = (fs.read pamFile).map (lockedPamFile fs)
  modules : ∀ path ∈ lockoutModulePaths, final.read path = fs.read path

theorem modulePath_apart : ∀ path ∈ lockoutModulePaths, IsLasting path ∧
    ∀ written ∈ lockoutFiles, basename path ≠ basename written := by
  decide +kernel

theorem ran_of_conf (held : final.read etcSecurityFaillockConf =
      (fs.read etcSecurityFaillockConf).map fun content => lockedConf content.cString)
    (touches : Touches lockoutFiles fs final)
    (pamFiles : ∀ pamFile ∈ pamFiles, final.read pamFile = (fs.read pamFile).map (lockedPamFile fs)) :
    Ran fs final := by
  refine ⟨held, pamFiles, fun path mem => ?_⟩
  rcases modulePath_apart path mem with ⟨lasting, apart⟩
  exact touches.read path lasting apart

theorem ran_of_settleLockout
    (noNul : ∀ path ∈ pamConfigurations, ∀ content, fs.read path = some content → 0 ∉ content)
    (succeeds : (settleLockout random fs).1 = 0) : Ran fs (settleLockout random fs).2 := by
  by_cases modern : ModernModel fs
  · rw [settleLockout, if_pos modern]
    obtain ⟨content, held⟩ := FileSystem.fileExists_iff.mp modern.1
    rcases setLockoutViaFaillockConf_reads random held with ⟨-, read, touches⟩
    refine ran_of_conf (by rw [read, held]; rfl) (touches.mono (by simp [lockoutFiles])) ?_
    intro pamFile mem
    rcases pamFiles_apart pamFile mem with ⟨lasting, differs⟩
    rw [touches.read pamFile lasting (by simpa using differs)]
    cases fs.read pamFile with
    | none => rfl
    | some content => rw [Option.map_some, lockedPamFile, if_pos modern]
  · rw [settleLockout, if_neg modern] at succeeds ⊢
    have edits : lockedPamFile fs = editedPamFile (pamModuleForLockout fs) := by
      funext content
      rw [lockedPamFile, if_neg modern]
    rcases setLockoutInLegacyModel_cases succeeds with ⟨ended, cases⟩
    rcases setLockoutInPamFiles_pamConfigurations noNul ended with ⟨loopTouches, confRead, edited⟩
    rw [← edits] at edited
    generalize (setLockoutInPamFiles random 0 ⟨0, 0, fs⟩ pamConfigurations).fs = looped at *
    have inFiles : Touches lockoutFiles fs looped := loopTouches.mono (List.subset_cons_self _ _)
    rcases cases with ⟨there, final_eq⟩ | ⟨missing, final_eq⟩
    · obtain ⟨content, held⟩ := FileSystem.fileExists_iff.mp there
      rcases setLockoutViaFaillockConf_reads (fun call => random (call + 4)) held with
        ⟨-, read, touches⟩
      rw [← final_eq] at read touches
      refine ran_of_conf (by rw [read, ← confRead, held]; rfl)
        (inFiles.trans (touches.mono (by simp [lockoutFiles]))) ?_
      intro pamFile mem
      rcases pamFiles_apart pamFile mem with ⟨lasting, differs⟩
      rw [touches.read pamFile lasting (by simpa using differs), edited pamFile mem]
    · rw [final_eq]
      have none_there : looped.read etcSecurityFaillockConf = none := by
        simpa [FileSystem.fileExists] using missing
      exact ran_of_conf (by rw [none_there, ← confRead, none_there]; rfl) inFiles edited

/-- The two lines for `pam_tally.so` are written to a PAM file. -/
def WritesTallyDeny (fs : FileSystem) : Prop :=
  ¬ModernModel fs ∧ (pamModuleForLockout fs).any (·.1 = pamTallySo) = true ∧
    ∃ pamFile ∈ pamFiles, fs.fileExists pamFile = true

/-- The second run starts with the files as the first one has left them. -/
def SameFiles (fs fs' : FileSystem) : Prop :=
  ∀ path ∈ lockoutFiles ++ lockoutModulePaths, fs'.read path = fs.read path

theorem pamModuleForLockout_ran (ran : Ran fs final) (same : SameFiles final fs') :
    pamModuleForLockout fs' = pamModuleForLockout fs := by
  apply pamModuleForLockout_congr
  intro pamSo known path mem
  have listed : path ∈ lockoutModulePaths := List.mem_flatMap_of_mem known mem
  rw [same path (List.mem_append_right _ listed), ran.modules path listed]

theorem mem_lockoutFiles_of_pamFile {pamFile : ByteString} (mem : pamFile ∈ pamFiles) :
    pamFile ∈ lockoutFiles :=
  List.mem_cons_of_mem _ ((mem_pamConfigurations_iff pamFile).mpr mem)

theorem fileExists_conf_ran (ran : Ran fs final) (same : SameFiles final fs') :
    fs'.fileExists etcSecurityFaillockConf = fs.fileExists etcSecurityFaillockConf := by
  have read := same etcSecurityFaillockConf (List.mem_append_left _ List.mem_cons_self)
  rw [FileSystem.fileExists, FileSystem.fileExists, read, ran.conf, Option.isSome_map]

theorem modernModel_ran (ran : Ran fs final) (same : SameFiles final fs') (modern : ModernModel fs) :
    ModernModel fs' := by
  refine (modernModel_congr ?_ (fileExists_conf_ran ran same)).mpr modern
  intro pamFile mem
  rw [same pamFile (List.mem_append_left _ (mem_lockoutFiles_of_pamFile mem)),
    ran.pamFiles pamFile mem]
  cases fs.read pamFile with
  | none => rfl
  | some content => rw [Option.map_some, lockedPamFile, if_pos modern]

theorem lockedPamFile_idem (ran : Ran fs final) (same : SameFiles final fs')
    (single : ¬WritesTallyDeny fs) {pamFile content : ByteString} (mem : pamFile ∈ pamFiles)
    (held : fs.read pamFile = some content) (noNul : 0 ∉ content) :
    lockedPamFile fs' (lockedPamFile fs content) = lockedPamFile fs content := by
  by_cases modern' : ModernModel fs'
  · rw [lockedPamFile, if_pos modern']
  · have legacy : ¬ModernModel fs := mt (modernModel_ran ran same) modern'
    rw [lockedPamFile, if_neg modern', lockedPamFile, if_neg legacy, pamModuleForLockout_ran ran same]
    cases chosen : pamModuleForLockout fs with
    | none => rfl
    | some pair =>
        rcases isReplacement_or_tally (mem_lockoutLines chosen) with new | ⟨path, -, path2, -, tally⟩
        · exact editedPamFile_idem noNul new
        · exact absurd ⟨legacy, by simp [chosen, tally], pamFile, mem, by simp [held]⟩ single

end Runs

section Growing

variable {content line t d : ByteString} {fs fs' final : FileSystem}
  {lines : List ByteString}

/-- The new lines stand between unmarked ones. -/
theorem replacedLines_shape {marker : ByteString} (some_marker : marker ≠ [])
    (plain : 10 ∉ marker) (newline : ByteString) (lines : List ByteString) :
    ∃ front back, replacedLines marker newline 35 lines = front ++ (fgetsLines newline ++ back) ∧
      (∀ line ∈ front, isMarked marker 35 line = false) ∧
        ∀ line ∈ back, isMarked marker 35 line = false := by
  refine ⟨lines.takeWhile (fun line => !isMarked marker 35 line) ++
    (if lines = [] then [[10]] else []), (lines.dropWhile fun line =>
      !isMarked marker 35 line).tail.filter fun line => !isMarked marker 35 line, ?_, ?_, ?_⟩
  · rw [replacedLines]
    simp only [List.append_assoc]
  · intro line mem
    rcases List.mem_append.mp mem with front | padded
    · simpa using List.mem_takeWhile_imp front
    · split at padded
      · rw [List.mem_singleton.mp padded]
        exact (isKept_newline some_marker plain).unmarked
      · cases padded
  · intro line mem
    simpa using List.of_mem_filter mem

/-- Of two new lines the second one is there twice after the second time. -/
theorem length_replacedLines_twice {marker newline : ByteString} (some_marker : marker ≠ [])
    (plain : 10 ∉ marker) (two : (fgetsLines newline).map (isMarked marker 35) = [true, false])
    (text : IsText content) (newText : IsText newline) :
    let once := (replacedLines marker newline 35 (fgetsLines content)).flatten
    once.length < (replacedLines marker newline 35 (fgetsLines once)).flatten.length := by
  intro once
  obtain ⟨t, others, lines_eq⟩ := List.exists_cons_of_ne_nil (l := fgetsLines newline) (by
    intro nothing
    simp [nothing] at two)
  rw [lines_eq, List.map_cons, List.cons.injEq] at two
  obtain ⟨d, none_else, others_eq⟩ := List.exists_cons_of_ne_nil (l := others) (by
    intro nothing
    simp [nothing] at two)
  rw [others_eq, List.map_cons, List.cons.injEq, List.map_eq_nil_iff] at two
  rcases two with ⟨marked, unmarked, rfl⟩
  rw [others_eq] at lines_eq
  have some_line : d ≠ [] :=
    Chunks.ne_nil_of_mem_chunksFrom (show d ∈ fgetsLines newline by simp [lines_eq])
  have reread : fgetsLines once = replacedLines marker newline 35 (fgetsLines content) :=
    fgetsLines_replacedLines text newText
  rcases replacedLines_shape some_marker plain newline (fgetsLines content) with
    ⟨front, back, shape, fronts, backs⟩
  have twice : replacedLines marker newline 35 (front ++ (t :: d :: back)) =
      front ++ ([t, d] ++ (d :: back)) := by
    have skipped : ∀ line ∈ front, (!isMarked marker 35 line) = true := by
      intro line mem
      rw [fronts line mem]
      rfl
    have kept : ∀ line ∈ d :: back, (!isMarked marker 35 line) = true := by
      rw [List.forall_mem_cons]
      refine ⟨by rw [unmarked]; rfl, fun line mem => ?_⟩
      rw [backs line mem]
      rfl
    have stops : (!isMarked marker 35 t) = false := by rw [marked]; rfl
    have before : (front ++ t :: d :: back).takeWhile (fun line => !isMarked marker 35 line) =
        front := by
      rw [List.takeWhile_append_of_pos skipped, List.takeWhile_cons, stops, if_neg Bool.false_ne_true,
        List.append_nil]
    have behind : (front ++ t :: d :: back).dropWhile (fun line => !isMarked marker 35 line) =
        t :: d :: back := by
      rw [List.dropWhile_append_of_pos skipped, List.dropWhile_cons, stops]
      rfl
    rw [replacedLines, before, behind, if_neg (by simp), List.tail_cons,
      List.filter_eq_self.mpr kept, lines_eq]
    simp
  have positive : 0 < d.length := List.length_pos_iff.mpr some_line
  rw [lines_eq] at shape
  have once_eq : once = (front ++ (t :: d :: back)).flatten := by
    rw [← reread] at shape
    rw [← flatten_fgetsLines once, shape]
    simp
  rw [reread, shape, List.cons_append, List.cons_append, List.nil_append, twice, once_eq]
  simp only [List.flatten_append, List.flatten_cons, List.length_append, List.flatten_nil,
    List.append_nil]
  omega

theorem infix_of_mentions {text : ByteString} (mentions : Mentions 35 text line) : text <:+: line := by
  rcases mentions with ⟨ahead, behind, rfl, -⟩
  exact ⟨ahead, behind, List.append_assoc _ _ _⟩

theorem not_modernModel_of_tally (ran : Ran fs final) (same : SameFiles final fs')
    (legacy : ¬ModernModel fs)
    (texts : ∀ pamFile ∈ pamFiles, ∀ content, fs.read pamFile = some content → IsText content)
    {path path2 : ByteString} (found : path ∈ pamModulePaths pamTallySo)
    (found2 : path2 ∈ pamModulePaths pamDenySo)
    (chosen : pamModuleForLockout fs = some (pamTallySo, pamTallyDenyLine path path2)) :
    ¬ModernModel fs' := by
  rintro ⟨there', pamFile, mem, named⟩
  apply legacy
  refine ⟨fileExists_conf_ran ran same ▸ there', pamFile, mem, ?_⟩
  have read' := same pamFile (List.mem_append_left _ (mem_lockoutFiles_of_pamFile mem))
  rw [ran.pamFiles pamFile mem] at read'
  cases held : fs.read pamFile with
  | none =>
      rw [held] at read'
      rw [← named]
      exact (checkLineFound_congr (by rw [read', held]; rfl)).symm
  | some content =>
      have text := texts pamFile mem content held
      have newText : IsText (pamTallyDenyLine path path2) := by
        rcases lockoutLines_spec (mem_lockoutLines chosen) with ⟨-, -, -, newText, -⟩
        exact newText
      rw [held, Option.map_some, lockedPamFile, if_neg legacy, editedPamFile_eq_lockedContent text,
        chosen, lockedContent] at read'
      have text' : IsText (replacedLines pamTallySo (pamTallyDenyLine path path2) 35
          (fgetsLines content)).flatten := isText_replacedLines text newText
      have module_plain : pamFaillockSo ≠ [] ∧ 10 ∉ pamFaillockSo := by decide +kernel
      have found_here : foundUncommented 35 pamFaillockSo [] 0 content = true := by
        rcases checkLineFoundNotCommentedOut_cases 35 read' module_plain.1 with ⟨mentioned, -⟩ | ⟨-, absent⟩
        · rw [ByteString.cString_of_not_mem text'.noNul,
            foundUncommented_iff text' (by decide) module_plain.1 module_plain.2,
            fgetsLines_replacedLines text newText] at mentioned
          rw [foundUncommented_iff text (by decide) module_plain.1 module_plain.2]
          obtain ⟨line, inside, mentions⟩ := mentioned
          rcases mem_replacedLines.mp inside with ⟨old, -⟩ | new | ⟨-, blank⟩
          · exact ⟨line, old, mentions⟩
          · exact absurd (infix_of_mentions mentions) ((tally_deny_lines path found path2 found2).2 line new)
          · rw [blank] at mentions
            exact absurd (infix_of_mentions mentions) (by decide +kernel)
        · rw [absent] at named
          cases named
      rcases checkLineFoundNotCommentedOut_cases 35 held module_plain.1 with ⟨-, success⟩ | ⟨absent, -⟩
      · exact success
      · rw [ByteString.cString_of_not_mem text.noNul, found_here] at absent
        cases absent

end Growing

section Again

variable {fs fs' : FileSystem} {random random' : ℕ → ℕ} {install : FileSystem → FileSystem}

/-- The PAM files have no NUL in them. -/
def PamFilesClean (fs : FileSystem) : Prop :=
  ∀ path ∈ pamConfigurations, ∀ content, fs.read path = some content → 0 ∉ content

def PamFilesText (fs : FileSystem) : Prop :=
  ∀ path ∈ pamConfigurations, ∀ content, fs.read path = some content → IsText content

/-- A run leaves PAM files with no NUL in them. -/
theorem pamFilesClean_ran {final : FileSystem} (ran : Ran fs final) (same : SameFiles final fs')
    (clean : PamFilesClean fs) : PamFilesClean fs' := by
  intro path mem content held
  have pamFile := (mem_pamConfigurations_iff path).mp mem
  rw [same path (List.mem_append_left _ (mem_lockoutFiles_of_pamFile pamFile)),
    ran.pamFiles path pamFile, Option.map_eq_some_iff] at held
  rcases held with ⟨old, held, rfl⟩
  have noNul := clean path mem old held
  rw [lockedPamFile]
  split
  · exact noNul
  · exact noNul_editedPamFile (fun pair chosen => mem_lockoutLines chosen) noNul

/-- Unless the two lines are written, all files stay as the first run has left them. -/
theorem reads_again {once twice : FileSystem} (clean : PamFilesClean fs) (ran : Ran fs once)
    (same : SameFiles once fs') (again : Ran fs' twice) (single : ¬WritesTallyDeny fs) :
    ∀ path ∈ lockoutFiles, twice.read path = once.read path := by
  intro path mem
  rcases List.mem_cons.mp mem with rfl | inside
  · rw [again.conf, same _ (List.mem_append_left _ mem), ran.conf]
    cases fs.read etcSecurityFaillockConf with
    | none => rfl
    | some content =>
        have noNul := noNul_lockedConf (notMem_cString content)
        rw [Option.map_some, Option.map_some, ByteString.cString_of_not_mem noNul, lockedConf_idem]
  · have pamFile := (mem_pamConfigurations_iff path).mp inside
    rw [again.pamFiles path pamFile, same _ (List.mem_append_left _ mem), ran.pamFiles path pamFile]
    cases held : fs.read path with
    | none => rfl
    | some content =>
        rw [Option.map_some, Option.map_some,
          lockedPamFile_idem ran same single pamFile held (clean path inside content held)]

theorem exists_of_isTally (isTally : (pamModuleForLockout fs).any (·.1 = pamTallySo) = true) :
    ∃ path ∈ pamModulePaths pamTallySo, ∃ path2 ∈ pamModulePaths pamDenySo,
      pamModuleForLockout fs = some (pamTallySo, pamTallyDenyLine path path2) := by
  have others : pamFaillockSo ≠ pamTallySo ∧ pamTally2So ≠ pamTallySo := by decide +kernel
  rw [pamModuleForLockout] at isTally ⊢
  split at isTally
  · simp [others.1] at isTally
  · split at isTally
    · simp [others.2] at isTally
    · split at isTally
      next path path2 found found2 =>
        exact ⟨path, mem_of_findPamModule found, path2, mem_of_findPamModule found2, rfl⟩
      · cases isTally

theorem reads_differ {once twice : FileSystem} (texts : PamFilesText fs) (ran : Ran fs once)
    (same : SameFiles once fs') (again : Ran fs' twice) (tally : WritesTallyDeny fs) :
    ∃ path ∈ lockoutFiles, twice.read path ≠ once.read path := by
  rcases tally with ⟨legacy, isTally, pamFile, mem, there⟩
  have listed := mem_lockoutFiles_of_pamFile mem
  obtain ⟨content, held⟩ := FileSystem.fileExists_iff.mp there
  have texts' : ∀ pamFile ∈ pamFiles, ∀ content, fs.read pamFile = some content → IsText content :=
    fun path inside => texts path ((mem_pamConfigurations_iff path).mpr inside)
  have text := texts' pamFile mem content held
  obtain ⟨path, found, path2, found2, chosen⟩ := exists_of_isTally isTally
  have legacy' := not_modernModel_of_tally ran same legacy texts' found found2 chosen
  have newText : IsText (pamTallyDenyLine path path2) :=
    (lockoutLines_spec (mem_lockoutLines chosen)).2.2.2.1
  have some_module : pamTallySo ≠ [] ∧ 10 ∉ pamTallySo := by decide +kernel
  have longer := length_replacedLines_twice some_module.1 some_module.2
    (tally_deny_lines path found path2 found2).1 text newText
  refine ⟨pamFile, listed, fun unchanged => ?_⟩
  rw [again.pamFiles pamFile mem, same _ (List.mem_append_left _ listed),
    ran.pamFiles pamFile mem, held, Option.map_some, Option.map_some, Option.some.injEq,
    lockedPamFile, if_neg legacy', lockedPamFile, if_neg legacy, pamModuleForLockout_ran ran same,
    chosen, editedPamFile_eq_lockedContent text, lockedContent,
    editedPamFile_eq_lockedContent (isText_replacedLines text newText), lockedContent] at unchanged
  exact absurd (congrArg List.length unchanged) longer.ne'

/-- A machine with a blank PAM file and the modules of the oldest variant. -/
def tallyLogin : FileSystem :=
  ((oneFile (bytes "/lib/security/pam_tally.so") (bytes "ELF")).write
    (bytes "/lib/security/pam_deny.so") (bytes "ELF")).write etcPamdLogin (bytes "\n")

end Again

end OsConfig.CommonUtils
