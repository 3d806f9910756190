import OsConfig.Common.PassUtils

/-!
# Whether the remediation of password creation requirements passes the audit

The remediation rewrites the marked lines of two files and leaves the others
alone. In `common-password` the audit stops at the first line that sets
requirements, which may stand in front of the one that was written, or be that
of another module. In `pwquality.conf` it does not accept a line that is
commented out.
-/

namespace OsConfig.CommonUtils

section Settings

/-- Settings as they stand behind each other on a line. -/
def renderSettings : List (ByteString × BitVec 32) → ByteString
  | [] => []
  | (name, value) :: rest => 32 :: (name ++ 61 :: (printInt value ++ renderSettings rest))

/-- The letters of option names. -/
def isLowerCase (byte : UInt8) : Bool :=
  97 ≤ byte && byte ≤ 122

theorem printInt_apart {name : ByteString} {value : BitVec 32}
    (letters : ∀ byte ∈ name, isLowerCase byte = true) :
    ∀ byte ∈ printInt value, byte ∉ name := by
  intro byte mem inside
  have lower := letters byte inside
  simp only [isLowerCase, Bool.and_eq_true, decide_eq_true_eq, UInt8.le_iff_toNat_le] at lower
  rcases mem_printInt mem with rfl | digit
  · exact absurd lower.1 (by decide)
  · simp only [Numerals.isDecimal, Bool.and_eq_true, decide_eq_true_eq, UInt8.le_iff_toNat_le,
      UInt8.reduceToNat] at digit lower
    omega

variable {name : ByteString} {value : BitVec 32} {earlier later : List (ByteString × BitVec 32)}

theorem search_renderSettings (tail : ByteString) (some_name : name ≠ [])
    (letters : ∀ byte ∈ name, isLowerCase byte = true)
    (others : ∀ setting ∈ earlier, ¬ name <:+: setting.1) :
    Substrings.search name (renderSettings (earlier ++ (name, value) :: later) ++ tail) =
      some (name ++ 61 :: (printInt value ++ (renderSettings later ++ tail))) := by
  have noBlank : (32 : UInt8) ∉ name := fun mem => absurd (letters _ mem) (by decide)
  have noSign : (61 : UInt8) ∉ name := fun mem => absurd (letters _ mem) (by decide)
  have nowhere : ¬ name <:+: [] := by simpa using some_name
  induction earlier with
  | nil =>
      have text_eq : renderSettings ((name, value) :: later) ++ tail =
          [] ++ 32 :: (name ++ 61 :: (printInt value ++ (renderSettings later ++ tail))) := by
        simp [renderSettings]
      rw [List.nil_append, text_eq, Substrings.search_append_cons _ _ some_name noBlank nowhere]
      exact Substrings.search_of_prefix (List.prefix_append _ _)
  | cons setting rest ih =>
      rcases setting with ⟨other, number⟩
      have text_eq : renderSettings ((other, number) :: rest ++ (name, value) :: later) ++ tail =
          [] ++ 32 :: (other ++ 61 :: (printInt number ++
            (renderSettings (rest ++ (name, value) :: later) ++ tail))) := by
        simp [renderSettings]
      rw [text_eq, Substrings.search_append_cons _ _ some_name noBlank nowhere,
        Substrings.search_append_cons _ _ some_name noSign (others _ List.mem_cons_self),
        Substrings.search_append_of_apart some_name (printInt_apart letters)]
      exact ih fun setting mem => others setting (List.mem_cons_of_mem _ mem)

theorem renderSettings_append_newline (settings : List (ByteString × BitVec 32)) :
    ∃ terminator rest, renderSettings settings ++ [10] = terminator :: rest ∧
      (terminator = 10 ∨ terminator = 32) := by
  cases settings with
  | nil => exact ⟨10, [], rfl, .inl rfl⟩
  | cons setting rest => exact ⟨32, _, rfl, .inr rfl⟩

end Settings

section Plain

variable {body : ByteString}

/-- Blanks and bytes behind the comment character. -/
def IsPlainBody (body : ByteString) : Prop :=
  ∀ byte ∈ body, byte = 32 ∨ 35 < byte.toNat

theorem IsPlainBody.uncommented (plain : IsPlainBody body) : 35 ∉ body ++ [10] := by
  intro mem
  rcases List.mem_append.mp mem with inside | last
  · rcases plain _ inside with blank | large
    · exact absurd blank (by decide)
    · exact absurd large (by decide)
  · exact absurd last (by decide)

theorem IsPlainBody.isTextLine (plain : IsPlainBody body) (short : body.length < lineMax) :
    IsTextLine (body ++ [10]) := by
  refine ⟨?_, body, rfl, ?_, short⟩
  · intro mem
    rcases List.mem_append.mp mem with inside | last
    · rcases plain _ inside with blank | large
      · exact absurd blank (by decide)
      · exact absurd large (by decide)
    · exact absurd last (by decide)
  · intro inside
    rcases plain _ inside with blank | large
    · exact absurd blank (by decide)
    · exact absurd large (by decide)

theorem lt_of_isLowerCase {byte : UInt8} (letter : isLowerCase byte = true) : 35 < byte.toNat := by
  simp only [isLowerCase, Bool.and_eq_true, decide_eq_true_eq, UInt8.le_iff_toNat_le,
    UInt8.reduceToNat] at letter
  omega

theorem isPlain_printInt (value : BitVec 32) : IsPlainBody (printInt value) := by
  intro byte mem
  rcases mem_printInt mem with rfl | digit
  · exact .inr (by decide)
  · simp only [Numerals.isDecimal, Bool.and_eq_true, decide_eq_true_eq, UInt8.le_iff_toNat_le,
      UInt8.reduceToNat] at digit
    exact .inr (by omega)

theorem isPlain_append {first second : ByteString} (left : IsPlainBody first)
    (right : IsPlainBody second) : IsPlainBody (first ++ second) := by
  intro byte mem
  rcases List.mem_append.mp mem with before | after
  · exact left byte before
  · exact right byte after

theorem isPlain_cons {byte : UInt8} (here : byte = 32 ∨ 35 < byte.toNat)
    (rest : IsPlainBody body) : IsPlainBody (byte :: body) := by
  intro other mem
  rcases List.mem_cons.mp mem with rfl | later
  · exact here
  · exact rest other later

theorem isPlain_blank : IsPlainBody [32] :=
  fun _ mem => .inl (List.mem_singleton.mp mem)

/-- The letters of a plain text, as a check that is quick on a literal. -/
theorem isPlain_of_all
    (letters : body.all (fun byte => byte.toNat == 32 || decide (35 < byte.toNat)) = true) :
    IsPlainBody body := by
  intro byte mem
  have letter := List.all_eq_true.mp letters byte mem
  rw [Bool.or_eq_true, beq_iff_eq, decide_eq_true_eq] at letter
  exact letter.imp_left fun blank => UInt8.toNat_inj.mp blank

theorem isPlain_of_isLowerCase (letters : body.all isLowerCase = true) : IsPlainBody body :=
  fun byte mem => .inr (lt_of_isLowerCase (List.all_eq_true.mp letters byte mem))

theorem isPlain_renderSettings {settings : List (ByteString × BitVec 32)}
    (letters : ∀ setting ∈ settings, setting.1.all isLowerCase = true) :
    IsPlainBody (renderSettings settings) := by
  induction settings with
  | nil => exact fun byte mem => absurd mem List.not_mem_nil
  | cons setting rest ih =>
      rcases setting with ⟨name, value⟩
      have named := isPlain_of_isLowerCase (letters _ List.mem_cons_self)
      have later := ih fun other mem => letters other (List.mem_cons_of_mem _ mem)
      exact isPlain_cons (.inl rfl) (isPlain_append named
        (isPlain_cons (.inr (by decide)) (isPlain_append (isPlain_printInt value) later)))

end Plain

section CommonPassword

variable {requirements : PasswordRequirements} {pamModule path line : ByteString}

def passwordModules : List ByteString :=
  [pamPwQualitySo, pamCrackLibSo, pamUnixSo]

theorem infix_of_mem_pamModulePaths (mem : path ∈ pamModulePaths pamModule) :
    pamModule <:+: path := by
  simp only [pamModulePaths, List.mem_cons, List.not_mem_nil, or_false] at mem
  rcases mem with rfl | rfl | rfl | rfl | rfl
  all_goals exact (List.suffix_append _ _).isInfix

theorem modulePath_plain :
    ∀ pamModule ∈ passwordModules, ∀ path ∈ pamModulePaths pamModule,
      path.all (fun byte => decide (35 < byte.toNat)) = true ∧ path.length ≤ 64 := by
  simp only [passwordModules, pamModulePaths, pamPwQualitySo, pamCrackLibSo, pamUnixSo]
  repeat rw [bytes_ofList]
  decide

def commonPasswordNames : List ByteString :=
  [bytes "retry", bytes "minlen", bytes "lcredit", bytes "ucredit", bytes "ocredit",
    bytes "dcredit"]

theorem modulePath_nameless :
    ∀ pamModule ∈ passwordModules, ∀ path ∈ pamModulePaths pamModule,
      ∀ name ∈ commonPasswordNames, ¬ name <:+: bytes "password requisite " ++ path := by
  simp only [passwordModules, pamModulePaths, commonPasswordNames, pamPwQualitySo, pamCrackLibSo,
    pamUnixSo]
  repeat rw [bytes_ofList]
  decide +kernel

/-- The settings of the line that is written, in their order. -/
def commonPasswordSettings (requirements : PasswordRequirements) : List (ByteString × BitVec 32) :=
  [(bytes "retry", requirements.retry), (bytes "minlen", requirements.minlen),
    (bytes "lcredit", requirements.lcredit), (bytes "ucredit", requirements.ucredit),
    (bytes "ocredit", requirements.ocredit), (bytes "dcredit", requirements.dcredit)]

theorem etcPamdCommonPasswordLine_eq : etcPamdCommonPasswordLine path requirements =
    (bytes "password requisite " ++ path) ++
      (renderSettings (commonPasswordSettings requirements) ++ [10]) := by
  have retry : bytes " retry=" = 32 :: (bytes "retry" ++ [61]) := by decide
  have minlen : bytes " minlen=" = 32 :: (bytes "minlen" ++ [61]) := by decide
  have lcredit : bytes " lcredit=" = 32 :: (bytes "lcredit" ++ [61]) := by decide
  have ucredit : bytes " ucredit=" = 32 :: (bytes "ucredit" ++ [61]) := by decide
  have ocredit : bytes " ocredit=" = 32 :: (bytes "ocredit" ++ [61]) := by decide
  have dcredit : bytes " dcredit=" = 32 :: (bytes "dcredit" ++ [61]) := by decide
  have newline : bytes "\n" = [10] := by decide
  simp only [etcPamdCommonPasswordLine, commonPasswordSettings, renderSettings, retry, minlen,
    lcredit, ucredit, ocredit, dcredit, newline]
  simp

/-- The line that is written, without its newline. -/
theorem isPlain_commonPasswordLine (known : pamModule ∈ passwordModules)
    (found : path ∈ pamModulePaths pamModule) : IsPlainBody (bytes "password requisite " ++ path ++
      renderSettings (commonPasswordSettings requirements)) := by
  have words : bytes "password requisite " = bytes "password" ++ 32 :: (bytes "requisite" ++ [32]) :=
    by decide
  have fixed : IsPlainBody (bytes "password requisite ") := by
    rw [words]
    exact isPlain_append (isPlain_of_isLowerCase (by decide))
      (isPlain_cons (.inl rfl) (isPlain_append (isPlain_of_isLowerCase (by decide)) isPlain_blank))
  have module : IsPlainBody path := fun byte mem =>
    .inr (of_decide_eq_true
      (List.all_eq_true.mp (modulePath_plain pamModule known path found).1 byte mem))
  have letters : ∀ name ∈ (commonPasswordSettings requirements).map Prod.fst,
      name.all isLowerCase = true :=
    (by decide : ∀ name ∈ commonPasswordNames, name.all isLowerCase = true)
  exact isPlain_append (isPlain_append fixed module)
    (isPlain_renderSettings fun setting mem => letters _ (List.mem_map_of_mem mem))

theorem isTextLine_commonPasswordLine (known : pamModule ∈ passwordModules)
    (found : path ∈ pamModulePaths pamModule) :
    IsTextLine (etcPamdCommonPasswordLine path requirements) := by
  rw [etcPamdCommonPasswordLine_eq, ← List.append_assoc]
  apply (isPlain_commonPasswordLine known found).isTextLine
  have short := (modulePath_plain pamModule known path found).2
  have fixed : (bytes "password requisite ").length = 19 := by decide
  have retry := length_printInt_le requirements.retry
  have minlen := length_printInt_le requirements.minlen
  have lcredit := length_printInt_le requirements.lcredit
  have ucredit := length_printInt_le requirements.ucredit
  have ocredit := length_printInt_le requirements.ocredit
  have dcredit := length_printInt_le requirements.dcredit
  have names : (bytes "retry").length = 5 ∧ (bytes "minlen").length = 6 ∧
      (bytes "lcredit").length = 7 ∧ (bytes "ucredit").length = 7 ∧
        (bytes "ocredit").length = 7 ∧ (bytes "dcredit").length = 7 := by decide
  simp only [commonPasswordSettings, renderSettings, List.length_append, List.length_cons,
    List.length_nil, fixed, names, lineMax]
  omega

theorem isRequirementsLine_commonPasswordLine (known : pamModule ∈ passwordModules)
    (found : path ∈ pamModulePaths pamModule) :
    isRequirementsLine (etcPamdCommonPasswordLine path requirements) = true := by
  have line_eq : etcPamdCommonPasswordLine path requirements = bytes "password requisite " ++
      (path ++ (renderSettings (commonPasswordSettings requirements) ++ [10])) := by
    rw [etcPamdCommonPasswordLine_eq, List.append_assoc]
  have head : (etcPamdCommonPasswordLine path requirements).head? = some 112 := by
    rw [line_eq, List.head?_append_of_ne_nil _ (by decide)]
    decide
  have fixed : ∀ word, word <:+: bytes "password requisite " →
      word <:+: etcPamdCommonPasswordLine path requirements := by
    intro word inside
    rw [line_eq]
    exact inside.trans (List.prefix_append _ _).isInfix
  have password := fixed (bytes "password") (by decide)
  have requisite := fixed (bytes "requisite") (by decide)
  have named : pamModule <:+: etcPamdCommonPasswordLine path requirements := by
    rw [line_eq]
    exact (infix_of_mem_pamModulePaths found).trans (List.infix_append' _ path _)
  have module : pamPwQualitySo <:+: etcPamdCommonPasswordLine path requirements ∨
      pamCrackLibSo <:+: etcPamdCommonPasswordLine path requirements ∨
        pamUnixSo <:+: etcPamdCommonPasswordLine path requirements := by
    simp only [passwordModules, List.mem_cons, List.not_mem_nil, or_false] at known
    rcases known with rfl | rfl | rfl
    · exact .inl named
    · exact .inr (.inl named)
    · exact .inr (.inr named)
  simpa [isRequirementsLine, head, password, requisite, or_assoc] using module

/-- What was written for an option is read back. -/
theorem getIntegerOption_commonPasswordLine (known : pamModule ∈ passwordModules)
    (found : path ∈ pamModulePaths pamModule) {name : ByteString} {value : BitVec 32}
    (mem : (name, value) ∈ commonPasswordSettings requirements) :
    getIntegerOptionFromBuffer (etcPamdCommonPasswordLine path requirements) name 61 35 = value := by
  have named : ∀ {setting}, setting ∈ commonPasswordSettings requirements →
      setting.1 ∈ commonPasswordNames := List.mem_map_of_mem
  have shape : ∀ name ∈ commonPasswordNames, name ≠ [] ∧ name.all isLowerCase = true := by decide
  have some_name : name ≠ [] := (shape name (named mem)).1
  have letters : ∀ byte ∈ name, isLowerCase byte = true :=
    List.all_eq_true.mp (shape name (named mem)).2
  have uncommented : 35 ∉ etcPamdCommonPasswordLine path requirements := by
    rw [etcPamdCommonPasswordLine_eq, ← List.append_assoc]
    exact (isPlain_commonPasswordLine known found).uncommented
  have noBlank : (32 : UInt8) ∉ name := fun inside => absurd (letters _ inside) (by decide)
  have noSign : (61 : UInt8) ∉ name := fun inside => absurd (letters _ inside) (by decide)
  rcases List.append_of_mem mem with ⟨earlier, later, settings⟩
  have others : ∀ setting ∈ earlier, ¬ name <:+: setting.1 := by
    have distinct : ∀ name ∈ commonPasswordNames, ∀ other ∈ commonPasswordNames,
        name <:+: other → name = other := by
      decide
    have once : ((commonPasswordSettings requirements).map Prod.fst).Nodup :=
      (by decide : commonPasswordNames.Nodup)
    intro setting inside occurs
    have inSettings : setting ∈ commonPasswordSettings requirements := by
      rw [settings]
      exact List.mem_append_left _ inside
    have equal := distinct name (named mem) setting.1 (named inSettings) occurs
    rw [settings, List.map_append, List.nodup_append] at once
    exact once.2.2 setting.1 (List.mem_map_of_mem inside) name (by simp) equal.symm
  rcases renderSettings_append_newline later with ⟨terminator, rest, tail_eq, ends⟩
  have there : Substrings.search name (etcPamdCommonPasswordLine path requirements) =
      some (name ++ 61 :: ([] ++ (printInt value ++ terminator :: rest))) := by
    -- The settings start with a blank, and the name does not occur in front of it.
    have behind : Substrings.search name (etcPamdCommonPasswordLine path requirements) =
        Substrings.search name (renderSettings (commonPasswordSettings requirements) ++ [10]) := by
      have first : renderSettings (commonPasswordSettings requirements) ++ [10] =
          32 :: (renderSettings (commonPasswordSettings requirements) ++ [10]).tail := rfl
      rw [etcPamdCommonPasswordLine_eq, first, Substrings.search_append_cons _ _ some_name noBlank
        (modulePath_nameless pamModule known path found name (named mem))]
      have nowhere : ¬ name <:+: [] := by simpa using some_name
      exact (Substrings.search_append_cons [] _ some_name noBlank nowhere).symm
    rw [behind, settings, search_renderSettings _ some_name letters, tail_eq, List.nil_append]
    exact others
  exact getIntegerOptionFromBuffer_eq uncommented there some_name noSign (by simp) ends

theorem readOptions_eq {options : List CommonPasswordOption}
    (desired : ∀ option ∈ options,
      getIntegerOptionFromBuffer line option.name 61 35 = option.desired) :
    readOptions line options = options.map (·.desired) := by
  induction options with
  | nil => rfl
  | cons option rest ih =>
      have here := desired option List.mem_cons_self
      simp [readOptions, here, ih fun other mem => desired other (List.mem_cons_of_mem _ mem)]

/-- Whether a line has the desired values. -/
def meetsRequirements (requirements : PasswordRequirements) (line : ByteString) : Bool :=
  readOptions line requirements.commonPasswordOptions =
    requirements.commonPasswordOptions.map (·.desired)

theorem meetsRequirements_commonPasswordLine (known : pamModule ∈ passwordModules)
    (found : path ∈ pamModulePaths pamModule) :
    meetsRequirements requirements (etcPamdCommonPasswordLine path requirements) = true := by
  apply decide_eq_true
  apply readOptions_eq
  intro option mem
  apply getIntegerOption_commonPasswordLine known found
  simp only [PasswordRequirements.commonPasswordOptions, List.mem_cons, List.not_mem_nil,
    or_false] at mem
  rcases mem with rfl | rfl | rfl | rfl | rfl | rfl
  all_goals simp [commonPasswordSettings]

theorem checkRequirementsForCommonPassword_eq_zero_iff {content : ByteString} {fs : FileSystem}
    {reason : Option ByteString} (held : fs.read etcPamdCommonPassword = some content)
    (text : IsText content) :
    (checkRequirementsForCommonPassword requirements reason fs).1 = 0 ↔
      ∃ line, (fgetsLines content).find? isRequirementsLine = some line ∧
        meetsRequirements requirements line = true := by
  simp only [checkRequirementsForCommonPassword, held, text.map_cString]
  cases found : (fgetsLines content).find? isRequirementsLine with
  | none => simp [enoent]
  | some line =>
      by_cases met : readOptions line requirements.commonPasswordOptions =
          requirements.commonPasswordOptions.map (·.desired)
      · simp [met, meetsRequirements]
      · simp [met, meetsRequirements, enoent]

/-- The line that was written decides unless one in front of it does. -/
theorem find_replacedLines (known : pamModule ∈ passwordModules)
    (found : path ∈ pamModulePaths pamModule) (lines : List ByteString) :
    (replacedLines pamModule (etcPamdCommonPasswordLine path requirements) 35 lines).find?
        isRequirementsLine =
      ((lines.takeWhile fun line => !isMarked pamModule 35 line).find? isRequirementsLine).or
        (some (etcPamdCommonPasswordLine path requirements)) := by
  have blank : isRequirementsLine [10] = false := by decide
  have padding : (if lines = [] then [[(10 : UInt8)]] else []).find? isRequirementsLine = none := by
    split <;> simp [blank]
  have written : isRequirementsLine (etcPamdCommonPasswordLine path requirements) = true :=
    isRequirementsLine_commonPasswordLine known found
  rw [replacedLines, (isTextLine_commonPasswordLine known found).fgetsLines_eq, List.append_assoc,
    List.append_assoc, List.find?_append, List.find?_append, padding, Option.none_or,
    List.singleton_append, List.find?_cons_of_pos written]

end CommonPassword

section PwQualityConf

variable {requirements : PasswordRequirements} {name line original content : ByteString}
  {value : BitVec 32} {fs : FileSystem} {random : ℕ → ℕ}

def pwQualityConfNames : List ByteString :=
  [bytes "retry", bytes "minlen", bytes "minclass", bytes "dcredit", bytes "ucredit",
    bytes "ocredit", bytes "lcredit"]

/-- What the remediation relies on about the names. -/
theorem pwQualityConfNames_plain : ∀ name ∈ pwQualityConfNames,
    name ≠ [] ∧ name.all isLowerCase = true ∧ name.length ≤ 8 := by
  decide

theorem eq_of_name_infix : ∀ other ∈ pwQualityConfNames, ∀ name ∈ pwQualityConfNames,
    other <:+: name → other = name := by
  decide

theorem etcSecurityPwQualityConfLine_eq : etcSecurityPwQualityConfLine name value =
    (name ++ [32]) ++ 61 :: ([32] ++ (printInt value ++ 10 :: [])) := by
  have sign : bytes " = " = [32, 61, 32] := by decide
  have newline : bytes "\n" = [10] := by decide
  simp [etcSecurityPwQualityConfLine, sign, newline]

theorem infix_pwQualityConfLine_iff {other : ByteString} (known : other ∈ pwQualityConfNames)
    (mem : name ∈ pwQualityConfNames) :
    other <:+: etcSecurityPwQualityConfLine name value ↔ other = name := by
  have letters := List.all_eq_true.mp (pwQualityConfNames_plain other known).2.1
  constructor
  · intro occurs
    rw [etcSecurityPwQualityConfLine_eq, List.append_assoc] at occurs
    apply eq_of_name_infix other known name mem
    apply Substrings.infix_append_of_apart (pwQualityConfNames_plain other known).1 _ occurs
    intro byte inside named
    have lower := letters byte named
    simp only [List.cons_append, List.nil_append, List.mem_cons, List.mem_append,
      List.not_mem_nil, or_false] at inside
    rcases inside with rfl | rfl | rfl | printed | rfl
    · exact absurd lower (by decide)
    · exact absurd lower (by decide)
    · exact absurd lower (by decide)
    · exact printInt_apart letters byte printed named
    · exact absurd lower (by decide)
  · rintro rfl
    rw [etcSecurityPwQualityConfLine_eq, List.append_assoc]
    exact (List.prefix_append _ _).isInfix

theorem head_pwQualityConfLine (mem : name ∈ pwQualityConfNames) :
    (etcSecurityPwQualityConfLine name value).head? ≠ some 35 := by
  have plain := pwQualityConfNames_plain name mem
  rcases List.exists_cons_of_ne_nil plain.1 with ⟨first, others, rfl⟩
  have lower := List.all_eq_true.mp plain.2.1 first List.mem_cons_self
  rw [etcSecurityPwQualityConfLine_eq]
  intro head
  have first_eq : first = 35 := by simpa using head
  exact absurd (first_eq ▸ lower) (by decide)

theorem isPlain_pwQualityConfLine (mem : name ∈ pwQualityConfNames) :
    IsPlainBody ((name ++ [32]) ++ 61 :: ([32] ++ printInt value)) := by
  have named := isPlain_of_isLowerCase (pwQualityConfNames_plain name mem).2.1
  exact isPlain_append (isPlain_append named isPlain_blank)
    (isPlain_cons (.inr (by decide)) (isPlain_append isPlain_blank (isPlain_printInt value)))

theorem pwQualityConfLine_append : etcSecurityPwQualityConfLine name value =
    ((name ++ [32]) ++ 61 :: ([32] ++ printInt value)) ++ [10] := by
  rw [etcSecurityPwQualityConfLine_eq]
  simp

theorem isTextLine_pwQualityConfLine (mem : name ∈ pwQualityConfNames) :
    IsTextLine (etcSecurityPwQualityConfLine name value) := by
  rw [pwQualityConfLine_append]
  apply (isPlain_pwQualityConfLine mem).isTextLine
  have short := (pwQualityConfNames_plain name mem).2.2
  have printed := length_printInt_le value
  simp only [List.length_append, List.length_cons, List.length_nil, lineMax]
  omega

theorem getIntegerOption_pwQualityConfLine (mem : name ∈ pwQualityConfNames) :
    getIntegerOptionFromBuffer (etcSecurityPwQualityConfLine name value) name 61 35 = value := by
  have plain := pwQualityConfNames_plain name mem
  have there : Substrings.search name (etcSecurityPwQualityConfLine name value) =
      some ((name ++ [32]) ++ 61 :: ([32] ++ (printInt value ++ 10 :: []))) := by
    rw [etcSecurityPwQualityConfLine_eq]
    apply Substrings.search_of_prefix
    rw [List.append_assoc]
    exact List.prefix_append _ _
  apply getIntegerOptionFromBuffer_eq _ there (by simp) _ (by simp) (.inl rfl)
  · rw [pwQualityConfLine_append]
    exact (isPlain_pwQualityConfLine mem).uncommented
  · intro sign
    rcases List.mem_append.mp sign with named | blank
    · exact absurd (List.all_eq_true.mp plain.2.1 _ named) (by decide)
    · exact absurd blank (by decide)

/-- What the audit thinks of one line: the option that it is about must be as desired. -/
def meetsOption (requirements : PasswordRequirements) (line : ByteString) : Bool :=
  match requirements.pwQualityConfOptions.find? fun (name, _) => name <:+: line with
  | some (name, desired) =>
      desired = getIntegerOptionFromBuffer line name 61 35 && line.head? ≠ some 35
  | none => true

theorem checkPwQualityConfLine_of_meetsOption {check : ConfCheck} (clean : check.status = 0)
    (settled : check.last = 0) (met : meetsOption requirements line = true) :
    (checkPwQualityConfLine requirements check line).status = 0 ∧
      (checkPwQualityConfLine requirements check line).last = 0 := by
  unfold meetsOption at met
  unfold checkPwQualityConfLine
  cases option : requirements.pwQualityConfOptions.find? fun (name, _) => name <:+: line with
  | none => simp [clean, settled]
  | some entry =>
      simp only [option, Bool.and_eq_true, decide_eq_true_eq] at met
      simp [checkPasswordRequirementFromBuffer, met.1, met.2, clean]

theorem checkPwQualityConfLine_of_not_meetsOption {check : ConfCheck} (clean : check.status = 0)
    (failed : meetsOption requirements line = false) :
    (checkPwQualityConfLine requirements check line).status ≠ 0 := by
  unfold meetsOption at failed
  unfold checkPwQualityConfLine
  cases option : requirements.pwQualityConfOptions.find? fun (name, _) => name <:+: line with
  | none => simp [option] at failed
  | some entry =>
      have wrong : (checkPasswordRequirementFromBuffer line entry.1 etcSecurityPwQualityConf 61 35
          entry.2 check.reason).1 = enoent := by
        simp only [option, Bool.and_eq_false_iff, decide_eq_false_iff_not, not_not] at failed
        unfold checkPasswordRequirementFromBuffer
        rcases failed with different | commented
        · rw [if_neg different]
          split <;> rfl
        · simp only [commented, if_true]
          split <;> rfl
      simp [wrong, clean, enoent]

theorem foldl_status_ne_zero {check : ConfCheck} (lines : List ByteString)
    (failed : check.status ≠ 0) :
    (lines.foldl (checkPwQualityConfLine requirements) check).status ≠ 0 := by
  induction lines generalizing check with
  | nil => exact failed
  | cons line rest ih =>
      apply ih
      simp [checkPwQualityConfLine, failed]

/-- The audit accepts the file if it accepts every line. -/
theorem foldl_status_eq_zero_iff {check : ConfCheck} (lines : List ByteString)
    (clean : check.status = 0) (settled : check.last = 0) :
    (lines.foldl (checkPwQualityConfLine requirements) check).status = 0 ↔
      ∀ line ∈ lines, meetsOption requirements line = true := by
  induction lines generalizing check with
  | nil => simp [clean]
  | cons line rest ih =>
      rw [List.foldl_cons, List.forall_mem_cons]
      cases met : meetsOption requirements line with
      | true =>
          have next := checkPwQualityConfLine_of_meetsOption clean settled met
          rw [ih next.1 next.2]
          simp
      | false =>
          have next := checkPwQualityConfLine_of_not_meetsOption clean met
          simpa using foldl_status_ne_zero rest next

/-- A line that was written is accepted. -/
theorem meetsOption_pwQualityConfLine (mem : (name, value) ∈ requirements.entries) :
    meetsOption requirements (etcSecurityPwQualityConfLine name value) = true := by
  have known : name ∈ pwQualityConfNames := by
    have named : name ∈ requirements.entries.map Prod.fst := List.mem_map_of_mem mem
    exact named
  have listed : (name, value) ∈ requirements.pwQualityConfOptions := by
    -- The last two change places.
    have places : requirements.entries.Perm requirements.pwQualityConfOptions := by
      unfold PasswordRequirements.entries PasswordRequirements.pwQualityConfOptions
      iterate 5 apply List.Perm.cons
      exact List.Perm.swap _ _ _
    exact places.mem_iff.mp mem
  have once : (requirements.pwQualityConfOptions.map Prod.fst).Nodup :=
    (by decide : [bytes "retry", bytes "minlen", bytes "minclass", bytes "dcredit",
      bytes "ucredit", bytes "lcredit", bytes "ocredit"].Nodup)
  have names : ∀ option ∈ requirements.pwQualityConfOptions, option.1 ∈ pwQualityConfNames := by
    intro option inside
    have named : option.1 ∈ requirements.pwQualityConfOptions.map Prod.fst :=
      List.mem_map_of_mem inside
    exact (by decide : ∀ name ∈ [bytes "retry", bytes "minlen", bytes "minclass",
      bytes "dcredit", bytes "ucredit", bytes "lcredit", bytes "ocredit"],
        name ∈ pwQualityConfNames) option.1 named
  unfold meetsOption
  split
  next other desired found =>
    have inside := List.mem_of_find?_eq_some found
    have occurs : other <:+: etcSecurityPwQualityConfLine name value := by
      simpa using List.find?_some found
    have equal := (infix_pwQualityConfLine_iff (names _ inside) known).mp occurs
    have same : (other, desired) = (name, value) := List.inj_on_of_nodup_map once inside listed equal
    rw [Prod.mk.injEq] at same
    rw [same.1, same.2, getIntegerOption_pwQualityConfLine known]
    simpa using head_pwQualityConfLine known
  · rfl

/-- What the entries that are done have made of the file. -/
structure Written (original : ByteString) (done : List (ByteString × BitVec 32))
    (content : ByteString) : Prop where
  text : IsText content
  known : ∀ entry ∈ done, entry.1 ∈ pwQualityConfNames
  comments : ∀ line, line.head? = some 35 →
    (line ∈ fgetsLines content ↔ line ∈ fgetsLines original)
  settled : ∀ line ∈ fgetsLines content, line.head? ≠ some 35 →
    ∀ entry ∈ done, entry.1 <:+: line →
      ∃ written ∈ done, line = etcSecurityPwQualityConfLine written.1 written.2

namespace Written

variable {done : List (ByteString × BitVec 32)}

theorem start (text : IsText original) : Written original [] original := by
  refine ⟨text, fun _ nothing => absurd nothing List.not_mem_nil, fun _ _ => Iff.rfl, ?_⟩
  intro line mem uncommented entry nothing
  cases nothing

theorem step (written : Written original done content) (known : name ∈ pwQualityConfNames) :
    Written original (done ++ [(name, value)])
      (replacedLines name (etcSecurityPwQualityConfLine name value) 35
        (fgetsLines content)).flatten := by
  have newLine : IsTextLine (etcSecurityPwQualityConfLine name value) :=
    isTextLine_pwQualityConfLine known
  have lines_eq : fgetsLines (replacedLines name (etcSecurityPwQualityConfLine name value) 35
      (fgetsLines content)).flatten =
        replacedLines name (etcSecurityPwQualityConfLine name value) 35 (fgetsLines content) :=
    fgetsLines_replacedLines written.text newLine.isText
  have allKnown : ∀ entry ∈ done ++ [(name, value)], entry.1 ∈ pwQualityConfNames := by
    intro entry mem
    rcases List.mem_append.mp mem with before | here
    · exact written.known entry before
    · rw [List.mem_singleton.mp here]
      exact known
  refine ⟨isText_replacedLines written.text newLine.isText, allKnown, ?_, ?_⟩
  · intro line comment
    rw [lines_eq, mem_replacedLines, newLine.fgetsLines_eq, ← written.comments line comment]
    constructor
    · rintro (⟨mem, -⟩ | new | ⟨-, rfl⟩)
      · exact mem
      · rw [List.mem_singleton.mp new] at comment
        exact absurd comment (head_pwQualityConfLine known)
      · cases comment
    · intro mem
      exact .inl ⟨mem, by simp [isMarked, comment]⟩
  · intro line mem uncommented entry inside occurs
    rw [lines_eq, mem_replacedLines, newLine.fgetsLines_eq] at mem
    rcases mem with ⟨kept, unmarked⟩ | new | ⟨-, rfl⟩
    · rcases List.mem_append.mp inside with before | here
      · rcases written.settled line kept uncommented entry before occurs with
          ⟨other, otherMem, line_eq⟩
        exact ⟨other, List.mem_append_left _ otherMem, line_eq⟩
      · rw [List.mem_singleton.mp here] at occurs
        simp [isMarked, occurs, uncommented] at unmarked
    · exact ⟨(name, value), by simp, List.mem_singleton.mp new⟩
    · have plain := pwQualityConfNames_plain entry.1 (allKnown entry inside)
      rcases List.exists_mem_of_ne_nil entry.1 plain.1 with ⟨byte, named⟩
      have newline : byte = 10 := by simpa using occurs.subset named
      exact absurd (newline ▸ List.all_eq_true.mp plain.2.1 byte named) (by decide)

end Written

theorem free_of_write (held : fs.read etcSecurityPwQualityConf = some original)
    (free : ∀ call, fs.read (replacingLinesName etcSecurityPwQualityConf (random call)) = none) :
    ∀ call, (fs.write etcSecurityPwQualityConf content).read
      (replacingLinesName etcSecurityPwQualityConf (random call)) = none := by
  intro call
  rw [FileSystem.read_write_of_ne, free call]
  intro same
  rw [← FileSystem.read_congr same, free call] at held
  cases held

theorem foldl_writeEntries {entries done : List (ByteString × BitVec 32)} {call : ℕ}
    {status : ℤ} (known : ∀ entry ∈ entries, entry.1 ∈ pwQualityConfNames)
    (held : fs.read etcSecurityPwQualityConf = some content)
    (free : ∀ call, fs.read (replacingLinesName etcSecurityPwQualityConf (random call)) = none)
    (written : Written original done content) (succeeded : status = 0) :
    ∃ content', (entries.zipIdx call).foldl
        (fun (_, fs) ((name, value), call) =>
          replaceMarkedLinesInFile etcSecurityPwQualityConf name
            (some (etcSecurityPwQualityConfLine name value)) 35 (random call) fs) (status, fs) =
          (0, fs.write etcSecurityPwQualityConf content') ∧
      Written original (done ++ entries) content' := by
  induction entries generalizing fs done content call status with
  | nil =>
      refine ⟨content, ?_, by rwa [List.append_nil]⟩
      rw [FileSystem.write_eq_self held, succeeded]
      rfl
  | cons entry rest ih =>
      rcases entry with ⟨name, value⟩
      have here := known _ List.mem_cons_self
      have plain := pwQualityConfNames_plain name here
      have noEol : (10 : UInt8) ∉ name := fun mem =>
        absurd (List.all_eq_true.mp plain.2.1 _ mem) (by decide)
      have printed := length_printInt_le value
      have long : 1 < (etcSecurityPwQualityConfLine name value).length := by
        rw [etcSecurityPwQualityConfLine_eq]
        simp only [List.length_append, List.length_cons, List.length_nil]
        omega
      have short : (etcSecurityPwQualityConfLine name value).length ≤ lineMax := by
        rw [etcSecurityPwQualityConfLine_eq]
        simp only [List.length_append, List.length_cons, List.length_nil, lineMax]
        omega
      have replaced : replaceMarkedLinesInFile etcSecurityPwQualityConf name
          (some (etcSecurityPwQualityConfLine name value)) 35 (random call) fs = (0, _) :=
        replaceMarkedLinesInFile_eq held written.text (free call) plain.1 noEol long short
      rw [List.zipIdx_cons, List.foldl_cons]
      dsimp only
      rw [replaced]
      rcases ih (fun other mem => known other (List.mem_cons_of_mem _ mem))
        FileSystem.read_write_self (free_of_write held free) (written.step here) rfl with
        ⟨content', equal, final⟩
      refine ⟨content', ?_, by simpa using final⟩
      rw [equal, FileSystem.write_write]

variable (requirements) in
theorem writePwQualityConfEntries_written (held : fs.read etcSecurityPwQualityConf = some content)
    (text : IsText content)
    (free : ∀ call, fs.read (replacingLinesName etcSecurityPwQualityConf (random call)) = none) :
    ∃ content', writePwQualityConfEntries requirements.entries random fs =
        (0, fs.write etcSecurityPwQualityConf content') ∧
      Written content requirements.entries content' := by
  have known : ∀ entry ∈ requirements.entries, entry.1 ∈ pwQualityConfNames := by
    intro entry mem
    have named : entry.1 ∈ requirements.entries.map Prod.fst := List.mem_map_of_mem mem
    exact named
  exact foldl_writeEntries known held free (Written.start text) rfl

/-- The audit accepts what was written unless an option stands in a comment. -/
theorem Written.check_eq_zero_iff {reason : Option ByteString}
    (written : Written original requirements.entries content)
    (held : fs.read etcSecurityPwQualityConf = some content) :
    (checkRequirementsForPwQualityConf requirements reason fs).1 = 0 ↔
      ∀ line ∈ fgetsLines original, line.head? = some 35 →
        ∀ name ∈ pwQualityConfNames, ¬ name <:+: line := by
  simp only [checkRequirementsForPwQualityConf, held, written.text.map_cString]
  rw [foldl_status_eq_zero_iff _ rfl rfl]
  constructor
  · intro accepted line mem comment name known occurs
    have met := accepted line ((written.comments line comment).mpr mem)
    have listed : ∃ option ∈ requirements.pwQualityConfOptions, option.1 = name := by
      simp only [pwQualityConfNames, List.mem_cons, List.not_mem_nil, or_false] at known
      simp only [PasswordRequirements.pwQualityConfOptions, List.mem_cons, List.not_mem_nil,
        or_false, exists_eq_or_imp, exists_eq_left]
      rcases known with rfl | rfl | rfl | rfl | rfl | rfl | rfl
      all_goals simp
    rcases listed with ⟨option, inside, rfl⟩
    unfold meetsOption at met
    split at met
    · simp [comment] at met
    next nothing =>
      have absent := List.find?_eq_none.mp nothing option inside
      simp [occurs] at absent
  · intro uncommented line mem
    by_cases mentioned : ∃ name ∈ pwQualityConfNames, name <:+: line
    · rcases mentioned with ⟨name, known, occurs⟩
      have plain : line.head? ≠ some 35 := by
        intro comment
        exact uncommented line ((written.comments line comment).mp mem) comment name known occurs
      have entryNamed : ∃ entry ∈ requirements.entries, entry.1 = name := by
        have named : name ∈ requirements.entries.map Prod.fst := known
        exact List.mem_map.mp named
      rcases entryNamed with ⟨entry, inside, rfl⟩
      rcases written.settled line mem plain entry inside occurs with ⟨other, otherMem, rfl⟩
      exact meetsOption_pwQualityConfLine otherMem
    · have nothing : requirements.pwQualityConfOptions.find? (fun (name, _) => name <:+: line) =
          none := by
        rw [List.find?_eq_none]
        intro option inside occurs
        apply mentioned
        refine ⟨option.1, ?_, by simpa using occurs⟩
        have named : option.1 ∈ requirements.pwQualityConfOptions.map Prod.fst :=
          List.mem_map_of_mem inside
        exact (by decide : ∀ name ∈ [bytes "retry", bytes "minlen", bytes "minclass",
          bytes "dcredit", bytes "ucredit", bytes "lcredit", bytes "ocredit"],
            name ∈ pwQualityConfNames) option.1 named
      simp [meetsOption, nothing]

end PwQualityConf

section Remediation

variable {ensurePamModulePackagesAreInstalled : FileSystem → FileSystem}
  {requirements : PasswordRequirements} {random : ℕ → ℕ} {reason : Option ByteString}
  {fs : FileSystem}

/-- The files once the PAM packages are installed, which they are for `common-password`. -/
def afterInstalling (ensurePamModulePackagesAreInstalled : FileSystem → FileSystem)
    (fs : FileSystem) : FileSystem :=
  if fs.fileExists etcPamdCommonPassword then ensurePamModulePackagesAreInstalled fs else fs

/-- The first line of `common-password` that sets requirements has the desired values, or stands
behind the line that is going to be written. -/
def CommonPasswordSettled (requirements : PasswordRequirements) (fs : FileSystem) : Prop :=
  ∃ content, fs.read etcPamdCommonPassword = some content ∧
    match pamModuleForPasswords fs with
    | some (pamModule, _) =>
        ∀ line ∈ ((fgetsLines content).takeWhile fun line => !isMarked pamModule 35 line).find?
          isRequirementsLine, meetsRequirements requirements line = true
    | none =>
        ∃ line, (fgetsLines content).find? isRequirementsLine = some line ∧
          meetsRequirements requirements line = true

/-- No option stands in a comment of `pwquality.conf`. -/
def PwQualityConfSettled (fs : FileSystem) : Prop :=
  ∃ content, fs.read etcSecurityPwQualityConf = some content ∧
    ∀ line ∈ fgetsLines content, line.head? = some 35 →
      ∀ name ∈ pwQualityConfNames, ¬ name <:+: line

theorem pamModuleForPasswords_known {pamModule path : ByteString}
    (chosen : pamModuleForPasswords fs = some (pamModule, path)) :
    pamModule ∈ passwordModules ∧ path ∈ pamModulePaths pamModule := by
  rcases List.exists_of_findSome?_eq_some chosen with ⟨other, known, found⟩
  rcases Option.map_eq_some_iff.mp found with ⟨otherPath, pathFound, equal⟩
  rw [Prod.mk.injEq] at equal
  rcases equal with ⟨rfl, rfl⟩
  exact ⟨known, List.mem_of_find?_eq_some pathFound⟩

/-- The two files are apart, also in a common directory. -/
theorem entry_commonPassword_ne (fs : FileSystem) :
    fs.entry etcPamdCommonPassword ≠ fs.entry etcSecurityPwQualityConf := by
  intro same
  have names : basename etcPamdCommonPassword = basename etcSecurityPwQualityConf :=
    congrArg Prod.snd same
  exact absurd names (by decide)

theorem replace_commonPassword {pamModule path content : ByteString} {call : ℕ}
    (known : pamModule ∈ passwordModules) (found : path ∈ pamModulePaths pamModule)
    (held : fs.read etcPamdCommonPassword = some content) (text : IsText content)
    (free : fs.read (replacingLinesName etcPamdCommonPassword call) = none) :
    replaceMarkedLinesInFile etcPamdCommonPassword pamModule
        (some (etcPamdCommonPasswordLine path requirements)) 35 call fs =
      (0, fs.write etcPamdCommonPassword (replacedLines pamModule
        (etcPamdCommonPasswordLine path requirements) 35 (fgetsLines content)).flatten) := by
  have plain : ∀ pamModule ∈ passwordModules, pamModule ≠ [] ∧ 10 ∉ pamModule := by decide
  have long : 1 < (etcPamdCommonPasswordLine path requirements).length := by
    have fixed : (bytes "password requisite ").length = 19 := by decide
    rw [etcPamdCommonPasswordLine_eq, List.length_append, List.length_append, fixed]
    omega
  have short : (etcPamdCommonPasswordLine path requirements).length ≤ lineMax := by
    have proper : IsTextLine (etcPamdCommonPasswordLine path requirements) :=
      isTextLine_commonPasswordLine known found
    rcases proper.proper with ⟨body, line_eq, -, bound⟩
    rw [line_eq, List.length_append, List.length_singleton]
    omega
  exact replaceMarkedLinesInFile_eq held text free (plain pamModule known).1 (plain pamModule known).2
    long short

theorem checkCommonPassword_replaced {pamModule path content : ByteString}
    (known : pamModule ∈ passwordModules) (found : path ∈ pamModulePaths pamModule)
    (text : IsText content)
    (held : fs.read etcPamdCommonPassword = some (replacedLines pamModule
      (etcPamdCommonPasswordLine path requirements) 35 (fgetsLines content)).flatten) :
    (checkRequirementsForCommonPassword requirements reason fs).1 = 0 ↔
      ∀ line ∈ ((fgetsLines content).takeWhile fun line => !isMarked pamModule 35 line).find?
        isRequirementsLine, meetsRequirements requirements line = true := by
  have newText : IsText (etcPamdCommonPasswordLine path requirements) :=
    (isTextLine_commonPasswordLine known found).isText
  rw [checkRequirementsForCommonPassword_eq_zero_iff held (isText_replacedLines text newText),
    fgetsLines_replacedLines text newText, find_replacedLines known found]
  have met : meetsRequirements requirements (etcPamdCommonPasswordLine path requirements) = true :=
    meetsRequirements_commonPasswordLine known found
  cases earlier : ((fgetsLines content).takeWhile fun line => !isMarked pamModule 35 line).find?
    isRequirementsLine with
  | none => simp [met]
  | some line => simp

theorem check_eq_zero_iff {common conf : Prop}
    (commonChecked : ∀ reason, (checkRequirementsForCommonPassword requirements reason fs).1 = 0 ↔
      common)
    (confChecked : ∀ reason, (checkRequirementsForPwQualityConf requirements reason fs).1 = 0 ↔
      conf) :
    (checkPasswordCreationRequirements requirements reason fs).1 = 0 ↔ common ∨ conf := by
  have noCommon : fs.fileExists etcPamdCommonPassword = false → ¬ common := by
    intro absent
    have missing : fs.read etcPamdCommonPassword = none := Option.isSome_eq_false_iff.mp absent |>
      Option.isNone_iff_eq_none.mp
    simp [← commonChecked none, checkRequirementsForCommonPassword, missing, enoent]
  have noConf : fs.fileExists etcSecurityPwQualityConf = false → ¬ conf := by
    intro absent
    have missing : fs.read etcSecurityPwQualityConf = none := Option.isSome_eq_false_iff.mp absent |>
      Option.isNone_iff_eq_none.mp
    simp [← confChecked none, checkRequirementsForPwQualityConf, missing, enoent]
  unfold checkPasswordCreationRequirements
  cases commonExists : fs.fileExists etcPamdCommonPassword with
  | false =>
      cases confExists : fs.fileExists etcSecurityPwQualityConf with
      | false => simp [noCommon commonExists, noConf confExists, enoent]
      | true => simp [noCommon commonExists, confChecked, enoent]
  | true =>
      cases confExists : fs.fileExists etcSecurityPwQualityConf with
      | false => simp [noConf confExists, commonChecked]
      | true =>
          by_cases passes : (checkRequirementsForCommonPassword requirements reason fs).1 = 0
          · simp [passes, (commonChecked reason).mp passes]
          · have failed : ¬ common := fun holds => passes ((commonChecked reason).mpr holds)
            simp [passes, failed, confChecked]

variable (requirements) in
/-- The first part writes `common-password` or leaves the files alone; whatever else is written, the
audit of `common-password` passes if that file is settled. -/
theorem setCommonPasswordRequirements_spec
    (commonPassword : ∀ content, (afterInstalling ensurePamModulePackagesAreInstalled fs).read
      etcPamdCommonPassword = some content → IsText content)
    (free : (afterInstalling ensurePamModulePackagesAreInstalled fs).read
      (replacingLinesName etcPamdCommonPassword (random 0)) = none) :
    let started := afterInstalling ensurePamModulePackagesAreInstalled fs
    let outcome := (setCommonPasswordRequirements ensurePamModulePackagesAreInstalled requirements
      random fs).2
    (outcome = started ∨ ∃ content, outcome = started.write etcPamdCommonPassword content) ∧
      ∀ fs' : FileSystem, fs'.read etcPamdCommonPassword = outcome.read etcPamdCommonPassword →
        ∀ reason, ((checkRequirementsForCommonPassword requirements reason fs').1 = 0 ↔
          CommonPasswordSettled requirements started) := by
  intro started outcome
  -- Without the file nothing is written and the audit does not pass.
  have missing : started.read etcPamdCommonPassword = none → outcome = started →
      ∀ fs' : FileSystem, fs'.read etcPamdCommonPassword = outcome.read etcPamdCommonPassword →
        ∀ reason, ((checkRequirementsForCommonPassword requirements reason fs').1 = 0 ↔
          CommonPasswordSettled requirements started) := by
    intro absent unchanged fs' same reason
    rw [unchanged, absent] at same
    simp [checkRequirementsForCommonPassword, same, CommonPasswordSettled, absent, enoent]
  cases commonExists : fs.fileExists etcPamdCommonPassword with
  | false =>
      have unchanged : outcome = started := by
        simp [outcome, started, setCommonPasswordRequirements, afterInstalling, commonExists]
      have absent : started.read etcPamdCommonPassword = none := by
        have absent_fs : fs.read etcPamdCommonPassword = none :=
          Option.isNone_iff_eq_none.mp (Option.isSome_eq_false_iff.mp commonExists)
        simpa [started, afterInstalling, commonExists] using absent_fs
      exact ⟨.inl unchanged, missing absent unchanged⟩
  | true =>
      have started_eq : ensurePamModulePackagesAreInstalled fs = started := by
        simp [started, afterInstalling, commonExists]
      have outcome_eq : outcome = (match pamModuleForPasswords started with
          | some (pamModule, pamModulePath) =>
              replaceMarkedLinesInFile etcPamdCommonPassword pamModule
                (some (etcPamdCommonPasswordLine pamModulePath requirements)) 35 (random 0) started
          | none => (enoent, started)).2 := by
        simp only [outcome, setCommonPasswordRequirements, commonExists, if_true, started_eq]
          <;> rfl
      cases held : started.read etcPamdCommonPassword with
      | none =>
          have unchanged : outcome = started := by
            rw [outcome_eq]
            split
            · simp [replaceMarkedLinesInFile, replaceMarkedLinesInFileInternal, held]
            · rfl
          exact ⟨.inl unchanged, missing held unchanged⟩
      | some content =>
          have text := commonPassword content held
          cases chosen : pamModuleForPasswords started with
          | none =>
              rw [chosen] at outcome_eq
              refine ⟨.inl outcome_eq, ?_⟩
              intro fs' same reason
              rw [outcome_eq, held] at same
              rw [checkRequirementsForCommonPassword_eq_zero_iff same text]
              simp [CommonPasswordSettled, held, chosen]
          | some pair =>
              rcases pair with ⟨pamModule, path⟩
              rcases pamModuleForPasswords_known chosen with ⟨known, found⟩
              rw [chosen] at outcome_eq
              dsimp only at outcome_eq
              rw [replace_commonPassword known found held text free] at outcome_eq
              refine ⟨.inr ⟨_, outcome_eq⟩, ?_⟩
              intro fs' same reason
              rw [outcome_eq, FileSystem.read_write_self] at same
              rw [checkCommonPassword_replaced known found text same]
              simp [CommonPasswordSettled, held, chosen]

variable (requirements) in
/-- The second part succeeds; the audit of `pwquality.conf` passes if that file is settled. -/
theorem setPwQualityConfRequirements_spec
    (pwQualityConf : ∀ content, fs.read etcSecurityPwQualityConf = some content → IsText content)
    (free : ∀ call, fs.read (replacingLinesName etcSecurityPwQualityConf (random call)) = none) :
    let outcome := setPwQualityConfRequirements requirements random fs
    outcome.1 = 0 ∧ outcome.2.read etcPamdCommonPassword = fs.read etcPamdCommonPassword ∧
      ∀ reason, ((checkRequirementsForPwQualityConf requirements reason outcome.2).1 = 0 ↔
        PwQualityConfSettled fs) := by
  intro outcome
  cases held : fs.read etcSecurityPwQualityConf with
  | none =>
      have unchanged : outcome = (0, fs) := by
        simp [outcome, setPwQualityConfRequirements, FileSystem.fileExists, held]
      rw [unchanged]
      refine ⟨rfl, rfl, ?_⟩
      intro reason
      simp [checkRequirementsForPwQualityConf, PwQualityConfSettled, held, enoent]
  | some content =>
      rcases writePwQualityConfEntries_written requirements held
        (pwQualityConf content held) free with ⟨content', outcome_eq, written⟩
      have wrote : outcome = (0, fs.write etcSecurityPwQualityConf content') := by
        simp [outcome, setPwQualityConfRequirements, FileSystem.fileExists, held, outcome_eq]
      rw [wrote]
      refine ⟨rfl, FileSystem.read_write_of_ne (entry_commonPassword_ne fs), ?_⟩
      intro reason
      rw [written.check_eq_zero_iff FileSystem.read_write_self]
      simp [PwQualityConfSettled, held]

/-- The remediation passes the audit exactly if what it does not rewrite does not matter. -/
theorem remediation_passes_audit_iff
    (commonPassword : ∀ content, (afterInstalling ensurePamModulePackagesAreInstalled fs).read
      etcPamdCommonPassword = some content → IsText content)
    (pwQualityConf : ∀ content, (afterInstalling ensurePamModulePackagesAreInstalled fs).read
      etcSecurityPwQualityConf = some content → IsText content)
    (free : ∀ fileName ∈ [etcPamdCommonPassword, etcSecurityPwQualityConf], ∀ call,
      (afterInstalling ensurePamModulePackagesAreInstalled fs).read
        (replacingLinesName fileName (random call)) = none) :
    let outcome := setPasswordCreationRequirements ensurePamModulePackagesAreInstalled requirements
      random fs
    (outcome.1 = 0 → (checkPasswordCreationRequirements requirements reason outcome.2).1 = 0) ↔
      CommonPasswordSettled requirements
          (afterInstalling ensurePamModulePackagesAreInstalled fs) ∨
        PwQualityConfSettled (afterInstalling ensurePamModulePackagesAreInstalled fs) := by
  intro outcome
  rcases setCommonPasswordRequirements_spec requirements commonPassword
    (free _ (by simp) 0) with ⟨wrote, commonChecked⟩
  generalize middle_eq : (setCommonPasswordRequirements ensurePamModulePackagesAreInstalled
    requirements random fs).2 = middle at wrote commonChecked
  generalize afterInstalling ensurePamModulePackagesAreInstalled fs = started at *
  have apart : ∀ path, started.entry path ≠ started.entry etcPamdCommonPassword →
      middle.read path = started.read path := by
    intro path differs
    rcases wrote with rfl | ⟨content, rfl⟩
    · rfl
    · exact FileSystem.read_write_of_ne differs
  have confRead := apart etcSecurityPwQualityConf (entry_commonPassword_ne started).symm
  have middleFree : ∀ call,
      middle.read (replacingLinesName etcSecurityPwQualityConf (random call)) = none := by
    intro call
    rw [apart _ (entry_replacingLinesName_ne (by decide) _ _), free _ (by simp) call]
  rcases setPwQualityConfRequirements_spec requirements
    (fun content held => pwQualityConf content (confRead ▸ held)) middleFree with
    ⟨succeeded, commonRead, confChecked⟩
  have confSettled : PwQualityConfSettled middle ↔ PwQualityConfSettled started := by
    simp only [PwQualityConfSettled, confRead]
  have outcome_eq : outcome = (0, (setPwQualityConfRequirements requirements random middle).2) := by
    simp only [outcome, setPasswordCreationRequirements, middle_eq, succeeded, true_or, if_true]
  rw [outcome_eq]
  simp only [forall_const]
  apply check_eq_zero_iff
  · exact commonChecked _ commonRead
  · intro reason
    rw [confChecked reason, confSettled]

/-- A machine with a blank `common-password` and no PAM modules. -/
def blankCommonPassword : FileSystem :=
  oneFile etcPamdCommonPassword (bytes "\n")

def defaultRequirements : PasswordRequirements :=
  ⟨3, 14, 4, -1, -1, -1, -1⟩

theorem remediation_passes_audit_iff_blank :
    let outcome := setPasswordCreationRequirements id defaultRequirements id blankCommonPassword
    (outcome.1 = 0 →
        (checkPasswordCreationRequirements defaultRequirements none outcome.2).1 = 0) ↔
      CommonPasswordSettled defaultRequirements (afterInstalling id blankCommonPassword) ∨
        PwQualityConfSettled (afterInstalling id blankCommonPassword) := by
  have started : afterInstalling id blankCommonPassword = blankCommonPassword := by
    simp [afterInstalling]
  have confFree : blankCommonPassword.read etcSecurityPwQualityConf = none := by
    rw [blankCommonPassword, oneFile,
      FileSystem.read_write_of_ne (entry_commonPassword_ne ⟨id, fun _ => none⟩).symm]
    rfl
  apply remediation_passes_audit_iff
  · intro content held
    rw [started, blankCommonPassword, oneFile, FileSystem.read_write_self,
      Option.some.injEq] at held
    rw [← held]
    exact ⟨by decide, by decide⟩
  · intro content held
    rw [started, confFree] at held
    cases held
  · intro fileName _ call
    rw [started, blankCommonPassword, oneFile,
      FileSystem.read_write_of_ne (entry_replacingLinesName_ne (by decide) _ _)]
    rfl

/-- Where no module is installed the remediation does nothing and reports success. -/
theorem remediation_without_modules :
    let outcome := setPasswordCreationRequirements id defaultRequirements id blankCommonPassword
    ¬ (outcome.1 = 0 →
      (checkPasswordCreationRequirements defaultRequirements none outcome.2).1 = 0) := by
  decide +kernel

end Remediation

end OsConfig.CommonUtils
