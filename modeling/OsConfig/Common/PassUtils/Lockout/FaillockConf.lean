import OsConfig.Common.Columns
import OsConfig.Common.FileUtils.Appending
import OsConfig.Common.FileUtils.Saving
import OsConfig.Common.PassUtils.Lockout

/-!
# Options of `faillock.conf`

An option is set on the first line that has its name, or on a new one behind all
others. All other lines stay, and the option is read back from that line. The
module itself takes the last line with the option, so the first one is only the
right one to read and to write if there is no other.
-/

namespace OsConfig.CommonUtils

open ByteString (getLines getLines_cons getLines_flatMap_append)

/-- What `SetFaillockConfOption` assembles in its buffer. -/
def assembledConf (key formatted originalContents : ByteString) : ByteString :=
  let (replaced, newContents) := replaceKeyLine key formatted false (originalContents.splitOn 10)
  if replaced then newContents
  else if newContents ≠ [] ∧ newContents.getLast? ≠ some 10 then
    newContents ++ bytes "\n" ++ formatted
  else newContents ++ formatted

theorem setFaillockConfOption_eq {fs : FileSystem} {fileName content : ByteString}
    (held : fs.read fileName = some content) (key : ByteString) (value : BitVec 32) (random : ℕ) :
    setFaillockConfOption fileName key value random fs =
      let saved := secureSaveToFile fileName
        (assembledConf key (faillockConfLine key value) content.cString) random fs
      (if saved.1 then 0 else eacces, saved.2) := by
  rw [setFaillockConfOption, loadStringFromFile, held]
  rfl

/-- A name of an option: it is not empty, and it has no blank, no equals sign, no comment mark, no
newline and no NUL in it. -/
structure IsOptionName (key : ByteString) : Prop where
  nonempty : key ≠ []
  plain : ∀ byte ∈ key, byte ∉ ([0, 9, 10, 32, 35, 61] : List UInt8)

section Rendering

variable {key : ByteString}

/-- A text of whole lines. -/
def render (lines : List ByteString) : ByteString :=
  lines.flatMap fun line => line ++ [10]

theorem render_cons (line : ByteString) (lines : List ByteString) :
    render (line :: lines) = line ++ 10 :: render lines := by
  simp [render]

theorem render_append (first second : List ByteString) :
    render (first ++ second) = render first ++ render second :=
  List.flatMap_append

theorem isKeyLine_nil : isKeyLine key [] = false := rfl

theorem getLast?_render (lines : List ByteString) :
    render lines = [] ∨ (render lines).getLast? = some 10 := by
  rcases List.eq_nil_or_concat lines with rfl | ⟨before, last, rfl⟩
  · exact .inl rfl
  · right
    rw [List.concat_eq_append, render_append, render_cons]
    simp [render]

/-- The line of a key without its newline. -/
def keyLine (key : ByteString) (value : BitVec 32) : ByteString :=
  key ++ bytes " = " ++ printInt value

end Rendering

section Assembling

variable {key formatted body content line : ByteString} {parts before after : List ByteString}

theorem intercalate_cons_cons (first second : ByteString) (rest : List ByteString) :
    [10].intercalate (first :: second :: rest) = first ++ 10 :: [10].intercalate (second :: rest) := by
  rw [List.intercalate_cons_of_ne_nil (by simp)]
  simp

theorem intercalate_append_cons (before : List ByteString) (first : ByteString)
    (after : List ByteString) :
    [10].intercalate (before ++ first :: after) = render before ++ [10].intercalate (first :: after) := by
  induction before with
  | nil => rfl
  | cons line rest ih =>
      have more : rest ++ first :: after ≠ [] := by simp
      rw [List.cons_append, List.intercalate_cons_of_ne_nil more, ih, render_cons]
      simp

theorem replaceKeyLine_true (parts : List ByteString) :
    replaceKeyLine key formatted true parts = (true, [10].intercalate parts) := by
  have newline : bytes "\n" = [10] := by decide
  induction parts with
  | nil => rfl
  | cons part rest ih =>
      cases rest with
      | nil => simp [replaceKeyLine]
      | cons next others =>
          rw [intercalate_cons_cons, replaceKeyLine, ih]
          simp [newline]

theorem replaceKeyLine_absent (absent : ∀ part ∈ parts, isKeyLine key part = false) :
    replaceKeyLine key formatted false parts = (false, [10].intercalate parts) := by
  have newline : bytes "\n" = [10] := by decide
  induction parts with
  | nil => rfl
  | cons part rest ih =>
      rw [List.forall_mem_cons] at absent
      cases rest with
      | nil => simp [replaceKeyLine, absent.1]
      | cons next others =>
          rw [intercalate_cons_cons, replaceKeyLine, ih absent.2]
          simp [newline, absent.1]

theorem replaceKeyLine_first (foreign : ∀ part ∈ before, isKeyLine key part = false)
    (here : isKeyLine key line = true) (after : List ByteString) :
    replaceKeyLine key formatted false (before ++ line :: after) =
      (true, render before ++ (formatted ++ [10].intercalate after)) := by
  have newline : bytes "\n" = [10] := by decide
  induction before with
  | nil => simp [replaceKeyLine, here, replaceKeyLine_true, render]
  | cons part rest ih =>
      rw [List.forall_mem_cons] at foreign
      rw [List.cons_append, replaceKeyLine, ih foreign.2]
      simp [newline, foreign.1, render_cons]

/-- The text has the new line in the place of the first line with the key, or behind all lines. -/
structure Assembled (key body content assembled : ByteString) (before old : List ByteString)
    (rest : ByteString) : Prop where
  text : assembled = render before ++ (body ++ 10 :: rest)
  unbroken : ∀ line ∈ before, 10 ∉ line
  foreign : ∀ line ∈ before, isKeyLine key line = false
  lines : getLines content = before ++ old ++ getLines rest
  replaced : old = [] ∧ rest = [] ∨ ∃ line, old = [line] ∧ isKeyLine key line = true
  among : ∀ byte ∈ render before ++ rest, byte ∈ content ∨ byte = 10
  length : assembled.length ≤ content.length + (body.length + 1) + 1

theorem unbroken_splitOn (content : ByteString) : ∀ part ∈ content.splitOn 10, 10 ∉ part :=
  fun _ mem => (ByteString.line_of_mem_splitOn mem).1

/-- A text ends behind a newline, or in the middle of its last line. -/
theorem render_getLines (content : ByteString) :
    content = render (getLines content) ∨
      content ++ [10] = render (getLines content) ∧ content ≠ [] ∧ content.getLast? ≠ some 10 := by
  have whole : [10].intercalate (content.splitOn 10) = content := List.intercalate_splitOn 10
  rcases List.eq_nil_or_concat (content.splitOn 10) with none_there | ⟨front, last, parts⟩
  · exact absurd none_there (List.splitOn_ne_nil 10 content)
  · rw [List.concat_eq_append] at parts
    have unbroken : 10 ∉ last := unbroken_splitOn content last (by simp [parts])
    have joined : content = render front ++ last := by
      rw [← whole, parts, intercalate_append_cons]
      simp
    by_cases ended : last = []
    · subst ended
      have lines : getLines content = front := by simp [getLines, parts]
      exact .inl (by rw [lines, joined, List.append_nil])
    · have lines : getLines content = front ++ [last] := by simp [getLines, parts, ended]
      right
      refine ⟨?_, ?_, ?_⟩
      · rw [lines, render_append, joined, List.append_assoc]
        simp [render]
      · rw [joined]
        simp [ended]
      · rw [joined, List.getLast?_append_of_ne_nil _ ended]
        exact fun newline => unbroken (List.mem_of_getLast? newline)

theorem assembledConf_spec (key body content : ByteString) :
    ∃ before old rest,
      Assembled key body content (assembledConf key (body ++ [10]) content) before old rest := by
  have whole : [10].intercalate (content.splitOn 10) = content := List.intercalate_splitOn 10
  have unbroken := unbroken_splitOn content
  cases found : (content.splitOn 10).find? (isKeyLine key) with
  | some line =>
      rcases List.find?_eq_some_iff_append.mp found with ⟨isKey, before, after, parts, others⟩
      have foreign : ∀ part ∈ before, isKeyLine key part = false := by simpa using others
      rw [parts] at whole unbroken
      have fronts : ∀ part ∈ before, 10 ∉ part := fun part mem =>
        unbroken part (List.mem_append_left _ mem)
      have unbrokenLine : 10 ∉ line := unbroken line (by simp)
      have assembled : assembledConf key (body ++ [10]) content =
          render before ++ (body ++ 10 :: [10].intercalate after) := by
        rw [assembledConf, parts, replaceKeyLine_first foreign isKey]
        simp
      -- The line may be the last one, with no newline behind it.
      have behind : ∃ tail, content = render before ++ (line ++ tail) ∧
          getLines (line ++ tail) = line :: getLines ([10].intercalate after) ∧
          (tail = [] ∧ [10].intercalate after = [] ∨ tail = 10 :: [10].intercalate after) := by
        rw [intercalate_append_cons] at whole
        cases after with
        | nil =>
            have some_line : line ≠ [] := by
              rintro rfl
              rw [isKeyLine_nil] at isKey
              cases isKey
            refine ⟨[], by rw [← whole]; simp, ?_, .inl ⟨rfl, rfl⟩⟩
            rw [List.append_nil, getLines, List.splitOn_eq_singleton unbrokenLine]
            simp [getLines, some_line]
        | cons next others =>
            rw [intercalate_cons_cons] at whole
            exact ⟨_, whole.symm, getLines_cons _ unbrokenLine, .inr rfl⟩
      rcases behind with ⟨tail, content_eq, lines, ends⟩
      refine ⟨before, [line], [10].intercalate after, assembled, fronts, foreign, ?_,
        .inr ⟨line, rfl, isKey⟩, ?_, ?_⟩
      · rw [content_eq, render, getLines_flatMap_append fronts, lines]
        simp
      · intro byte mem
        left
        rw [content_eq]
        rcases ends with ⟨-, nothing⟩ | rest
        · rw [nothing, List.append_nil] at mem
          exact List.mem_append_left _ mem
        · simp only [rest, List.mem_append, List.mem_cons] at mem ⊢
          rcases mem with front | later
          · exact .inl front
          · exact .inr (.inr (.inr later))
      · rw [assembled, content_eq]
        rcases ends with ⟨nothing, none_behind⟩ | rest
        · simp only [nothing, none_behind, List.length_append, List.length_cons, List.length_nil]
          omega
        · simp only [rest, List.length_append, List.length_cons]
          omega
  | none =>
      have absent : ∀ part ∈ content.splitOn 10, isKeyLine key part = false := by
        simpa using List.find?_eq_none.mp found
      have assembled : assembledConf key (body ++ [10]) content =
          render (getLines content) ++ (body ++ [10]) ∧
            (render (getLines content)).length ≤ content.length + 1 ∧
            ∀ byte ∈ render (getLines content), byte ∈ content ∨ byte = 10 := by
        have newline : bytes "\n" = [10] := by decide
        rw [assembledConf, replaceKeyLine_absent absent, whole]
        rcases render_getLines content with ended | ⟨joined, some_content, unended⟩
        · have last : ¬(content ≠ [] ∧ content.getLast? ≠ some 10) := by
            rcases getLast?_render (getLines content) with nothing | last
            · simp [ended.trans nothing]
            · rw [← ended] at last
              simp [last]
          rw [← ended]
          refine ⟨?_, by omega, fun byte mem => .inl mem⟩
          simp only [Bool.false_eq_true, if_false, if_neg last]
        · rw [← joined]
          refine ⟨?_, by simp, ?_⟩
          · simp only [Bool.false_eq_true, if_false, if_pos (And.intro some_content unended), newline]
          · intro byte mem
            simpa using mem
      refine ⟨getLines content, [], [], assembled.1, ?_, ?_, ?_, .inl ⟨rfl, rfl⟩, ?_, ?_⟩
      · exact fun line mem => ByteString.unbroken_of_mem_getLines mem
      · exact fun line mem => absent line (ByteString.mem_splitOn_of_mem_getLines mem)
      · simp [getLines]
      · simpa using assembled.2.2
      · rw [assembled.1, List.length_append, List.length_append, List.length_singleton]
        omega

theorem splitOn_render_append (unbroken : ∀ line ∈ before, 10 ∉ line) (text : ByteString) :
    (render before ++ text).splitOn 10 = before ++ text.splitOn 10 := by
  induction before with
  | nil => rfl
  | cons line rest ih =>
      rw [List.forall_mem_cons] at unbroken
      rw [render_cons, List.append_assoc, List.cons_append,
        List.splitOn_append_cons_self_of_not_mem unbroken.1, ih unbroken.2, List.cons_append]

theorem findFaillockConfValue_append (foreign : ∀ line ∈ before, isKeyLine key line = false)
    (lines : List ByteString) :
    findFaillockConfValue key (before ++ lines) = findFaillockConfValue key lines := by
  induction before with
  | nil => rfl
  | cons line rest ih =>
      rw [List.forall_mem_cons] at foreign
      rw [List.cons_append, findFaillockConfValue, if_neg (by simp [foreign.1]), ih foreign.2]

/-- The first line with the key is the given one, and a newline ends it. -/
def KeyedText (key body content : ByteString) : Prop :=
  ∃ before rest, content = render before ++ (body ++ 10 :: rest) ∧
    ∀ line ∈ before, 10 ∉ line ∧ isKeyLine key line = false

/-- The same line is put in the same place. -/
theorem KeyedText.assembledConf_eq (keyed : KeyedText key body content) (unbroken : 10 ∉ body)
    (isKey : isKeyLine key body = true) : assembledConf key (body ++ [10]) content = content := by
  rcases keyed with ⟨before, rest, rfl, fronts⟩
  rw [assembledConf, splitOn_render_append fun line mem => (fronts line mem).1,
    List.splitOn_append_cons_self_of_not_mem unbroken,
    replaceKeyLine_first (fun line mem => (fronts line mem).2) isKey, List.intercalate_splitOn]
  simp

theorem KeyedText.find (keyed : KeyedText key body content) (unbroken : 10 ∉ body)
    (isKey : isKeyLine key body = true) (some_value : keyLineValue key body ≠ []) :
    ∃ rest, findFaillockConfValue key (content.splitOn 10) =
      some (keyLineValue key body ++ 10 :: rest) := by
  rcases keyed with ⟨before, rest, rfl, fronts⟩
  have newline : bytes "\n" = [10] := by decide
  rcases List.exists_cons_of_ne_nil (List.splitOn_ne_nil 10 rest) with ⟨first, others, parts⟩
  refine ⟨rest, ?_⟩
  rw [splitOn_render_append fun line mem => (fronts line mem).1,
    List.splitOn_append_cons_self_of_not_mem unbroken,
    findFaillockConfValue_append fun line mem => (fronts line mem).2, findFaillockConfValue,
    if_pos ⟨isKey, some_value⟩, newline, parts, intercalate_cons_cons, ← parts,
    List.intercalate_splitOn]

namespace Assembled

variable {assembled rest : ByteString} {old : List ByteString}

theorem getLines (shape : Assembled key body content assembled before old rest)
    (unbroken : 10 ∉ body) :
    ByteString.getLines assembled = before ++ body :: ByteString.getLines rest := by
  rw [shape.text, render, getLines_flatMap_append shape.unbroken, getLines_cons _ unbroken]

theorem keyed (shape : Assembled key body content assembled before old rest) :
    KeyedText key body assembled :=
  ⟨before, rest, shape.text, fun line mem => ⟨shape.unbroken line mem, shape.foreign line mem⟩⟩

theorem noNul (shape : Assembled key body content assembled before old rest) (clean : 0 ∉ content)
    (cleanBody : 0 ∉ body) : 0 ∉ assembled := by
  have others : 0 ∉ render before ++ rest := by
    intro mem
    rcases shape.among 0 mem with inside | newline
    · exact clean inside
    · cases newline
  rw [List.mem_append, not_or] at others
  rw [shape.text, List.mem_append, List.mem_append, List.mem_cons, not_or, not_or, not_or]
  exact ⟨others.1, cleanBody, by decide, others.2⟩

end Assembled

end Assembling

section Setting

variable {key content : ByteString} {value : BitVec 32} {fs : FileSystem}

theorem faillockConfLine_eq (key : ByteString) (value : BitVec 32) :
    faillockConfLine key value = keyLine key value ++ [10] := by
  have newline : bytes "\n" = [10] := by decide
  rw [faillockConfLine, keyLine, newline]

theorem notMem_printInt {byte : UInt8} (value : BitVec 32) (differs : byte ≠ 45)
    (noDigit : Numerals.isDecimal byte = false) : byte ∉ printInt value := by
  intro mem
  rcases mem_printInt mem with minus | digit
  · exact differs minus
  · rw [noDigit] at digit
    cases digit

theorem IsOptionName.keyLine_plain (name : IsOptionName key) (value : BitVec 32) :
    10 ∉ keyLine key value ∧ 0 ∉ keyLine key value := by
  have sign : bytes " = " = [32, 61, 32] := by decide
  rw [keyLine, sign]
  simp only [List.mem_append, not_or]
  refine ⟨⟨⟨fun mem => ?_, by decide⟩, notMem_printInt value (by decide) (by decide)⟩,
    ⟨fun mem => ?_, by decide⟩, notMem_printInt value (by decide) (by decide)⟩
  · exact name.plain _ mem (by decide)
  · exact name.plain _ mem (by decide)

theorem IsOptionName.firstNonWhitespace_keyLine (name : IsOptionName key) (value : BitVec 32) :
    firstNonWhitespace (keyLine key value) = keyLine key value := by
  rcases List.exists_cons_of_ne_nil name.nonempty with ⟨first, others, key_eq⟩
  have plain := name.plain first (by simp [key_eq])
  simp only [List.mem_cons, List.not_mem_nil, or_false, not_or] at plain
  rw [firstNonWhitespace, keyLine, key_eq, List.cons_append, List.cons_append,
    List.dropWhile_cons_of_neg]
  simp [plain]

theorem drop_keyLine (key : ByteString) (value : BitVec 32) :
    (keyLine key value).drop key.length = 32 :: 61 :: 32 :: printInt value := by
  have sign : bytes " = " = [32, 61, 32] := by decide
  rw [keyLine, sign, List.append_assoc, List.drop_left]
  rfl

theorem IsOptionName.isKeyLine_keyLine (name : IsOptionName key) (value : BitVec 32) :
    isKeyLine key (keyLine key value) = true := by
  rcases List.exists_cons_of_ne_nil name.nonempty with ⟨first, others, key_eq⟩
  have plain := name.plain first (by simp [key_eq])
  simp only [List.mem_cons, List.not_mem_nil, or_false, not_or] at plain
  have starts : key <+: keyLine key value := by
    rw [keyLine, List.append_assoc]
    exact List.prefix_append _ _
  have head : (keyLine key value).head? = some first := by
    rw [keyLine, key_eq]
    rfl
  simp [isKeyLine, name.firstNonWhitespace_keyLine, drop_keyLine, starts, head, plain]

theorem IsOptionName.keyLineValue_keyLine (name : IsOptionName key) (value : BitVec 32) :
    keyLineValue key (keyLine key value) = printInt value := by
  rcases List.exists_cons_of_ne_nil (printInt_ne_nil value) with ⟨first, others, digits⟩
  have mem : first ∈ printInt value := by simp [digits]
  have differs (byte : UInt8) (noSign : byte ≠ 45) (noDigit : Numerals.isDecimal byte = false) :
      first ≠ byte := ne_of_mem_of_not_mem mem (notMem_printInt value noSign noDigit)
  have black : ¬(first = 32 ∨ first = 9 ∨ first = 61) := by
    rw [not_or, not_or]
    exact ⟨differs 32 (by decide) (by decide), differs 9 (by decide) (by decide),
      differs 61 (by decide) (by decide)⟩
  rw [keyLineValue, name.firstNonWhitespace_keyLine, drop_keyLine, digits]
  simp [black]

theorem KeyedText.getFaillockConfIntegerOption {fileName : ByteString}
    (keyed : KeyedText key (keyLine key value) content) (name : IsOptionName key)
    (held : fs.read fileName = some content) (noNul : 0 ∉ content) :
    CommonUtils.getFaillockConfIntegerOption fileName key fs = value := by
  have value_eq := name.keyLineValue_keyLine value
  obtain ⟨rest, found⟩ := keyed.find (name.keyLine_plain value).1 (name.isKeyLine_keyLine value)
    (by rw [value_eq]; exact printInt_ne_nil value)
  rw [CommonUtils.getFaillockConfIntegerOption, loadStringFromFile, held, Option.map_some,
    ByteString.cString_of_not_mem noNul]
  simp only [found, value_eq]
  exact ofInt_strtol_printInt value (by simp [Numerals.isDecimal])

/-- The assembled text is what the file holds in the end. -/
theorem setFaillockConfOption_saves (held : fs.read etcSecurityFaillockConf = some content)
    (key : ByteString) (value : BitVec 32) (random : ℕ) :
    (setFaillockConfOption etcSecurityFaillockConf key value random fs).1 = 0 ∧
      (setFaillockConfOption etcSecurityFaillockConf key value random fs).2.read
        etcSecurityFaillockConf =
          some (assembledConf key (faillockConfLine key value) content.cString) ∧
      Touches [etcSecurityFaillockConf] fs
        (setFaillockConfOption etcSecurityFaillockConf key value random fs).2 := by
  have lasting : IsLasting etcSecurityFaillockConf := by decide
  have some_text : assembledConf key (faillockConfLine key value) content.cString ≠ [] := by
    rcases assembledConf_spec key (keyLine key value) content.cString with ⟨before, old, rest, shape⟩
    rw [faillockConfLine_eq, shape.text]
    simp
  rcases secureSaveToFile_spec fs random lasting some_text with ⟨saved, read, touches⟩
  rw [setFaillockConfOption_eq held]
  simp only [saved, if_true]
  exact ⟨trivial, read, touches⟩

end Setting

section Values

variable {key other body replacement content : ByteString} {fs : FileSystem}

theorem printInt_values :
    printInt 3 = bytes "3" ∧ printInt 5 = bytes "5" ∧ printInt 900 = bytes "900" := by
  repeat rw [bytes_ofList]
  decide

theorem keyLine_deny : keyLine (bytes "deny") 3 = bytes "deny = 3" := by
  rw [keyLine, printInt_values.1]
  repeat rw [bytes_ofList]
  decide

theorem keyLine_unlockTime : keyLine (bytes "unlock_time") 900 = bytes "unlock_time = 900" := by
  rw [keyLine, printInt_values.2.2]
  repeat rw [bytes_ofList]
  decide

theorem isKeyLine_apart : isKeyLine (bytes "unlock_time") (keyLine (bytes "deny") 3) = false ∧
    isKeyLine (bytes "deny") (keyLine (bytes "unlock_time") 900) = false := by
  rw [keyLine_deny, keyLine_unlockTime]
  repeat rw [bytes_ofList]
  decide

theorem assembledConf_absent
    (absent : ∀ part ∈ content.splitOn 10, isKeyLine other part = false) :
    ∃ extra, assembledConf other replacement content = content ++ extra := by
  rw [assembledConf, replaceKeyLine_absent absent, List.intercalate_splitOn]
  simp only [Bool.false_eq_true, if_false]
  split
  · exact ⟨_, List.append_assoc _ _ _⟩
  · exact ⟨_, rfl⟩

/-- Setting another option leaves the line alone. -/
theorem KeyedText.assembledConf (keyed : KeyedText key body content) (unbroken : 10 ∉ body)
    (apart : isKeyLine other body = false) (plain : 10 ∉ replacement)
    (foreign : isKeyLine key replacement = false) :
    KeyedText key body (assembledConf other (replacement ++ [10]) content) := by
  rcases keyed with ⟨before, rest, rfl, fronts⟩
  have parts : (render before ++ (body ++ 10 :: rest)).splitOn 10 =
      before ++ body :: rest.splitOn 10 := by
    rw [splitOn_render_append fun line mem => (fronts line mem).1,
      List.splitOn_append_cons_self_of_not_mem unbroken]
  have joined : [10].intercalate (body :: rest.splitOn 10) = body ++ 10 :: rest := by
    rcases List.exists_cons_of_ne_nil (List.splitOn_ne_nil 10 rest) with ⟨first, others, first_eq⟩
    rw [first_eq, intercalate_cons_cons, ← first_eq, List.intercalate_splitOn]
  cases inFront : before.find? (isKeyLine other) with
  | some line =>
      rcases List.find?_eq_some_iff_append.mp inFront with ⟨isKey, front, after, rfl, others⟩
      simp only [List.forall_mem_append, List.forall_mem_cons] at fronts
      refine ⟨front ++ replacement :: after, rest, ?_, ?_⟩
      · rw [CommonUtils.assembledConf, parts, List.append_assoc, List.cons_append,
          replaceKeyLine_first (by simpa using others) isKey, intercalate_append_cons, joined,
          render_append, render_cons]
        simp
      · simp only [List.forall_mem_append, List.forall_mem_cons]
        exact ⟨fronts.1, ⟨plain, foreign⟩, fronts.2.2⟩
  | none =>
      have absent : ∀ line ∈ before, isKeyLine other line = false := by
        simpa using List.find?_eq_none.mp inFront
      cases behind : (rest.splitOn 10).find? (isKeyLine other) with
      | some line =>
          rcases List.find?_eq_some_iff_append.mp behind with ⟨isKey, front, after, split, others⟩
          have foreigners : ∀ part ∈ before ++ body :: front, isKeyLine other part = false := by
            simp only [List.forall_mem_append, List.forall_mem_cons]
            exact ⟨absent, apart, by simpa using others⟩
          refine ⟨before, render front ++ (replacement ++ [10] ++ [10].intercalate after), ?_, fronts⟩
          rw [CommonUtils.assembledConf, parts, split, ← List.cons_append, ← List.append_assoc,
            replaceKeyLine_first foreigners isKey, render_append, render_cons]
          simp
      | none =>
          have nowhere : ∀ part ∈ before ++ body :: rest.splitOn 10,
              isKeyLine other part = false := by
            simp only [List.forall_mem_append, List.forall_mem_cons]
            exact ⟨absent, apart, by simpa using List.find?_eq_none.mp behind⟩
          rw [← parts] at nowhere
          obtain ⟨extra, extra_eq⟩ := @assembledConf_absent _ (replacement ++ [10]) _ nowhere
          exact ⟨before, rest ++ extra, by rw [extra_eq]; simp, fronts⟩

/-- The values that the remediation writes to `faillock.conf`. -/
def lockedConf (content : ByteString) : ByteString :=
  assembledConf (bytes "unlock_time") (faillockConfLine (bytes "unlock_time") 900)
    (assembledConf (bytes "deny") (faillockConfLine (bytes "deny") 3) content)

theorem isOptionName_deny : IsOptionName (bytes "deny") :=
  ⟨by decide, by decide⟩

theorem isOptionName_unlockTime : IsOptionName (bytes "unlock_time") :=
  ⟨by decide, by decide⟩

theorem keyedText_lockedConf (content : ByteString) :
    KeyedText (bytes "deny") (keyLine (bytes "deny") 3) (lockedConf content) ∧
      KeyedText (bytes "unlock_time") (keyLine (bytes "unlock_time") 900) (lockedConf content) := by
  have deny := isOptionName_deny
  have unlock := isOptionName_unlockTime
  rcases assembledConf_spec (bytes "deny") (keyLine (bytes "deny") 3) content with
    ⟨before, old, rest, denyShape⟩
  have denyKeyed := (denyShape.keyed).assembledConf (deny.keyLine_plain 3).1 isKeyLine_apart.1
    (unlock.keyLine_plain 900).1 isKeyLine_apart.2
  rcases assembledConf_spec (bytes "unlock_time") (keyLine (bytes "unlock_time") 900)
    (assembledConf (bytes "deny") (keyLine (bytes "deny") 3 ++ [10]) content) with
    ⟨before', old', rest', unlockShape⟩
  rw [lockedConf, faillockConfLine_eq, faillockConfLine_eq]
  exact ⟨denyKeyed, unlockShape.keyed⟩

theorem lockedConf_idem (content : ByteString) : lockedConf (lockedConf content) = lockedConf content := by
  rcases keyedText_lockedConf content with ⟨denyKeyed, unlockKeyed⟩
  have deny := isOptionName_deny
  have unlock := isOptionName_unlockTime
  generalize lockedConf content = locked at *
  rw [lockedConf, faillockConfLine_eq, faillockConfLine_eq,
    denyKeyed.assembledConf_eq (deny.keyLine_plain 3).1 (deny.isKeyLine_keyLine 3),
    unlockKeyed.assembledConf_eq (unlock.keyLine_plain 900).1 (unlock.isKeyLine_keyLine 900)]

theorem noNul_assembledConf {key : ByteString} (name : IsOptionName key) (value : BitVec 32)
    (noNul : 0 ∉ content) : 0 ∉ assembledConf key (faillockConfLine key value) content := by
  rcases assembledConf_spec key (keyLine key value) content with ⟨before, old, rest, shape⟩
  rw [faillockConfLine_eq]
  exact shape.noNul noNul (name.keyLine_plain value).2

theorem noNul_lockedConf (noNul : 0 ∉ content) : 0 ∉ lockedConf content :=
  noNul_assembledConf isOptionName_unlockTime 900 (noNul_assembledConf isOptionName_deny 3 noNul)

theorem notMem_cString (content : ByteString) : 0 ∉ content.cString := by
  intro nul
  simpa using List.mem_takeWhile_imp nul

theorem setLockoutViaFaillockConf_reads (random : ℕ → ℕ)
    (held : fs.read etcSecurityFaillockConf = some content) :
    let outcome := setLockoutForFailedPasswordAttemptsViaFaillockConf etcSecurityFaillockConf 3 900
      random fs
    outcome.1 = 0 ∧ outcome.2.read etcSecurityFaillockConf = some (lockedConf content.cString) ∧
      Touches [etcSecurityFaillockConf] fs outcome.2 := by
  intro outcome
  have noNul : 0 ∉ content.cString := notMem_cString content
  rcases setFaillockConfOption_saves held (bytes "deny") 3 (random 0) with
    ⟨denySet, denyRead, denyTouches⟩
  rcases setFaillockConfOption_saves denyRead (bytes "unlock_time") 900 (random 1) with
    ⟨unlockSet, read, unlockTouches⟩
  rw [ByteString.cString_of_not_mem (noNul_assembledConf isOptionName_deny 3 noNul)] at read
  have outcome_eq : outcome = (0, (setFaillockConfOption etcSecurityFaillockConf
      (bytes "unlock_time") 900 (random 1) (setFaillockConfOption etcSecurityFaillockConf
        (bytes "deny") 3 (random 0) fs).2).2) := by
    simp only [outcome, setLockoutForFailedPasswordAttemptsViaFaillockConf, denySet, unlockSet,
      if_true]
  rw [outcome_eq]
  exact ⟨rfl, read, denyTouches.trans unlockTouches⟩

end Values

section Module

variable {key content : ByteString} {value : BitVec 32} {fs : FileSystem}

def assignedNumber (key line : ByteString) : Option (BitVec 32) :=
  if isKeyLine key line ∧ keyLineValue key line ≠ [] then
    some (BitVec.ofInt 32 (strtol (keyLineValue key line)))
  else none

/-- The value that `pam_faillock.so` uses: the last assignment counts. -/
def lastAssigned (key content : ByteString) : Option (BitVec 32) :=
  ((getLines content).filterMap (assignedNumber key)).getLast?

/-- The assignments behind the first line with the key. -/
def laterAssigned (key content : ByteString) : List (BitVec 32) :=
  ((getLines content).dropWhile fun line => !isKeyLine key line).tail.filterMap (assignedNumber key)

/-- The number that is read at a line, of which the lines behind may be a part where the line has
only white space for a value. -/
def numberAt (key line : ByteString) (behind : List ByteString) : BitVec 32 :=
  BitVec.ofInt 32 (strtol ([10].intercalate (keyLineValue key line :: behind)))

theorem assignedNumber_eq_none_iff {line : ByteString} :
    assignedNumber key line = none ↔ ¬(isKeyLine key line = true ∧ keyLineValue key line ≠ []) := by
  simp [assignedNumber]

theorem assignedNumber_of_foreign {line : ByteString} (foreign : isKeyLine key line = false) :
    assignedNumber key line = none := by
  simp [assignedNumber, foreign]

theorem getFaillockConfIntegerOption_first {before behind : List ByteString} {first : ByteString}
    (held : fs.read etcSecurityFaillockConf = some content) (noNul : 0 ∉ content)
    (parts : content.splitOn 10 = before ++ first :: behind)
    (others : ∀ line ∈ before, assignedNumber key line = none)
    (assigns : assignedNumber key first ≠ none) :
    getFaillockConfIntegerOption etcSecurityFaillockConf key fs = numberAt key first behind := by
  have newline : bytes "\n" = [10] := by decide
  have found : findFaillockConfValue key (before ++ first :: behind) =
      some ([10].intercalate (keyLineValue key first :: behind)) := by
    clear parts
    induction before with
    | nil =>
        rw [Ne, assignedNumber_eq_none_iff, not_not] at assigns
        rw [List.nil_append, findFaillockConfValue, if_pos assigns, newline]
    | cons line rest ih =>
        rw [List.forall_mem_cons, assignedNumber_eq_none_iff] at others
        rw [List.cons_append, findFaillockConfValue, if_neg others.1, ih others.2]
  rw [getFaillockConfIntegerOption, loadStringFromFile, held, Option.map_some,
    ByteString.cString_of_not_mem noNul]
  simp only [parts, found, numberAt]

theorem exists_first_of_lastAssigned {number : BitVec 32}
    (last : number ∈ lastAssigned key content) :
    ∃ before first behind, content.splitOn 10 = before ++ first :: behind ∧
      (∀ line ∈ before, assignedNumber key line = none) ∧ assignedNumber key first ≠ none := by
  have mem := List.mem_of_getLast? last
  rcases List.mem_filterMap.mp mem with ⟨line, inside, assigned⟩
  have among := ByteString.mem_splitOn_of_mem_getLines inside
  cases found : (content.splitOn 10).find? fun line => (assignedNumber key line).isSome with
  | none =>
      have none_assigns := List.find?_eq_none.mp found line among
      simp [assigned] at none_assigns
  | some first =>
      rcases List.find?_eq_some_iff_append.mp found with ⟨assigns, before, behind, parts, others⟩
      refine ⟨before, first, behind, parts, by simpa using others, ?_⟩
      intro none_assigned
      simp [none_assigned] at assigns

theorem lastAssigned_assembledConf (name : IsOptionName key) (content : ByteString)
    (value : BitVec 32) :
    lastAssigned key (assembledConf key (faillockConfLine key value) content) =
      some ((laterAssigned key content).getLast?.getD value) := by
  rcases assembledConf_spec key (keyLine key value) content with ⟨before, old, rest, shape⟩
  rcases name.keyLine_plain value with ⟨unbroken, -⟩
  have value_eq := name.keyLineValue_keyLine value
  have own : assignedNumber key (keyLine key value) = some value := by
    have number : BitVec.ofInt 32 (strtol (printInt value ++ [])) = value :=
      ofInt_strtol_printInt value (by simp)
    rw [List.append_nil] at number
    have some_value : keyLineValue key (keyLine key value) ≠ [] := by
      rw [value_eq]
      exact printInt_ne_nil value
    rw [assignedNumber, if_pos ⟨name.isKeyLine_keyLine value, some_value⟩, value_eq, number]
  have front : before.filterMap (assignedNumber key) = [] := by
    rw [List.filterMap_eq_nil_iff]
    exact fun line mem => assignedNumber_of_foreign (shape.foreign line mem)
  have skipped : (before.dropWhile fun line => !isKeyLine key line) = [] := by
    rw [List.dropWhile_eq_nil_iff]
    intro line mem
    simp [shape.foreign line mem]
  have later : laterAssigned key content = (getLines rest).filterMap (assignedNumber key) := by
    rw [laterAssigned, shape.lines, List.append_assoc, List.dropWhile_append, skipped]
    rcases shape.replaced with ⟨none_old, nothing⟩ | ⟨line, one_old, isKey⟩
    · simp [none_old, nothing, getLines]
    · simp [one_old, isKey]
  rw [faillockConfLine_eq, lastAssigned, shape.getLines unbroken, List.filterMap_append, front,
    List.nil_append, List.filterMap_cons_some own, ← later]
  cases others : laterAssigned key content with
  | nil => rfl
  | cons number more =>
      rw [List.getLast?_cons_cons, List.getLast?_eq_some_getLast (by simp)]
      rfl

def repeatedConf : ByteString :=
  bytes "deny = 3\ndeny = 10\n"

end Module

end OsConfig.CommonUtils
