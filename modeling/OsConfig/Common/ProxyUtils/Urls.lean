import OsConfig.Common.ProxyUtils.Forms

/-!
# Proxy URLs

A proxy is a host with a port and perhaps credentials, and its URL is the text
that the documentation of the parser describes. Parsing the URL of a proxy
gives back the proxy. What else is accepted has the separators of a URL as
well, but its port need not be a number.
-/

namespace OsConfig.ProxyUtils

open ByteString CommonUtils

/-- A text of the characters that need no backslash, and not an empty one. -/
def IsName (text : ByteString) : Prop :=
  text ≠ [] ∧ ∀ byte ∈ text, isProxyCharacter byte = true

/-- A text in which there may also be an '@'. -/
def IsSecret (text : ByteString) : Prop :=
  text ≠ [] ∧ ∀ byte ∈ text, isProxyCharacter byte = true ∨ byte = 64

instance (text : ByteString) : Decidable (IsName text) :=
  inferInstanceAs (Decidable (_ ∧ _))

instance (text : ByteString) : Decidable (IsSecret text) :=
  inferInstanceAs (Decidable (_ ∧ _))

/-- A user with a password. A backslash at the end of the password would hide the separator. -/
structure Credentials where
  username : ByteString
  password : ByteString
  username_secret : IsSecret username
  password_secret : IsSecret password
  password_end : password.getLast? ≠ some 92

/-- What a proxy URL says. -/
structure Proxy where
  credentials : Option Credentials
  host : ByteString
  port : ℕ
  host_name : IsName host
  port_pos : 1 ≤ port
  port_le : port ≤ 65535

/-- An '@' is written with a backslash. -/
def addEscaping (text : ByteString) : ByteString :=
  text.flatMap fun byte => if byte = 64 then [92, 64] else [byte]

/-- The part of a URL in front of the host. -/
def Credentials.url (credentials : Credentials) : ByteString :=
  addEscaping credentials.username ++ 58 :: (addEscaping credentials.password ++ [64])

def Proxy.url (proxy : Proxy) : ByteString :=
  bytes "http://" ++ ((proxy.credentials.map Credentials.url).getD [] ++
    (proxy.host ++ 58 :: toDecimal proxy.port))

section Escaping

variable {text : ByteString} {previous byte : UInt8}

theorem addEscaping_cons (byte : UInt8) (rest : ByteString) :
    addEscaping (byte :: rest) = (if byte = 64 then [92, 64] else [byte]) ++ addEscaping rest :=
  List.flatMap_cons

theorem head?_addEscaping (text : ByteString) : (addEscaping text).head? ≠ some 64 := by
  cases text with
  | nil => simp [addEscaping]
  | cons byte rest =>
      rw [addEscaping_cons]
      split
      · simp
      next other => simpa using other

theorem removeProxyStringEscaping_addEscaping (text : ByteString) :
    removeProxyStringEscaping (addEscaping text) = text := by
  induction text with
  | nil => rfl
  | cons byte rest ih =>
      rw [addEscaping_cons]
      split
      next at_sign =>
        rw [List.cons_append, List.cons_append, List.nil_append, removeProxyStringEscaping, ih,
          at_sign]
      next other =>
        rw [List.singleton_append, removeProxyStringEscaping, ih]
        intro more _ starts
        apply head?_addEscaping rest
        rw [starts]
        rfl

theorem escaped_addEscaping (text : ByteString) : Escaped previous (addEscaping text) := by
  induction text generalizing previous with
  | nil => trivial
  | cons byte rest ih =>
      rw [addEscaping_cons]
      split
      · exact ⟨fun backslash => absurd backslash (by decide), fun _ => rfl, ih⟩
      next other => exact ⟨fun at_sign => absurd at_sign other, ih⟩

theorem addEscaping_ne_nil (nonempty : text ≠ []) : addEscaping text ≠ [] := by
  rcases List.exists_cons_of_ne_nil nonempty with ⟨byte, rest, rfl⟩
  rw [addEscaping_cons]
  split
  · exact List.cons_ne_nil _ _
  · exact List.cons_ne_nil _ _

theorem mem_addEscaping (mem : byte ∈ addEscaping text) : byte = 92 ∨ byte ∈ text := by
  rcases List.mem_flatMap.mp mem with ⟨letter, letter_mem, written⟩
  split at written
  next at_sign =>
    simp only [List.mem_cons, List.not_mem_nil, or_false] at written
    rcases written with backslash | at_sign'
    · exact Or.inl backslash
    · rw [at_sign', ← at_sign]
      exact Or.inr letter_mem
  · rw [List.mem_singleton.mp written]
    exact Or.inr letter_mem

theorem lastOf_addEscaping (nonempty : text ≠ []) (ends : text.getLast? ≠ some 92) :
    lastOf previous (addEscaping text) ≠ 92 := by
  rcases List.eq_nil_or_concat text with rfl | ⟨front, last, rfl⟩
  · exact absurd rfl nonempty
  · have other : last ≠ 92 := by simpa using ends
    rw [List.concat_eq_append, addEscaping, List.flatMap_append, List.flatMap_singleton, lastOf]
    split
    · simp
    · simpa using other

theorem supported_addEscaping (secret : IsSecret text) (mem : byte ∈ addEscaping text) :
    IsSupported byte := by
  rcases mem_addEscaping mem with rfl | inside
  · exact Or.inl rfl
  · exact (secret.2 byte inside).imp_right Or.inl

theorem column_notMem_addEscaping (secret : IsSecret text) : 58 ∉ addEscaping text := by
  intro mem
  rcases mem_addEscaping mem with backslash | inside
  · exact absurd backslash (by decide)
  · exact absurd (secret.2 58 inside) (by decide)

end Escaping

section Names

variable {text : ByteString} {byte : UInt8}

theorem IsName.column (name : IsName text) : 58 ∉ text := fun mem =>
  absurd (name.2 58 mem) (by decide)

theorem IsName.separator (name : IsName text) : 64 ∉ text := fun mem =>
  absurd (name.2 64 mem) (by decide)

theorem IsName.supported (name : IsName text) (mem : byte ∈ text) : IsSupported byte :=
  Or.inl (name.2 byte mem)

/-- A port is written with characters that need no backslash. -/
theorem isName_toDecimal (port : ℕ) : IsName (toDecimal port) := by
  refine ⟨Numerals.render_ne_nil port, fun byte mem => ?_⟩
  have digit : isDigit byte = true := Numerals.isDecimal_of_mem_render mem
  simp [isProxyCharacter, isAlnum, digit]

theorem strtol_toDecimal {port : ℕ} (le : port ≤ 65535) :
    BitVec.ofInt 32 (strtol (toDecimal port)) = BitVec.ofNat 32 port := by
  have written : toDecimal port = Numerals.renderInt 10 port := by
    have natural : ¬ (port : ℤ) < 0 := by omega
    rw [Numerals.renderInt, if_neg natural, Int.natAbs_natCast]
    rfl
  have number : strtol (Numerals.renderInt 10 port ++ []) = port :=
    strtol_renderInt (by omega) (by omega) (by simp)
  rw [written, ← List.append_nil (Numerals.renderInt 10 (port : ℤ)), number, BitVec.ofInt_natCast]

theorem copied_of_ne_nil (nonempty : text ≠ []) : copied text = some text :=
  if_neg nonempty

end Names

section Proxies

variable {host port : ByteString}

/-- The part of a URL behind the credentials. -/
theorem separator_notMem (host_name : IsName host) (port_name : IsName port) :
    64 ∉ host ++ 58 :: port := by
  rw [List.mem_append, List.mem_cons]
  rintro (inside | column | inside)
  · exact host_name.separator inside
  · exact absurd column (by decide)
  · exact port_name.separator inside

theorem supported_host (host_name : IsName host) (port_name : IsName port) {byte : UInt8}
    (mem : byte ∈ host ++ 58 :: port) : IsSupported byte := by
  rw [List.mem_append, List.mem_cons] at mem
  rcases mem with inside | rfl | inside
  · exact host_name.supported inside
  · exact Or.inr (Or.inr rfl)
  · exact port_name.supported inside

theorem serverForm_url (host_name : IsName host) (port_name : IsName port) :
    ServerForm (host ++ 58 :: port) host port where
  body_eq := rfl
  server_column := host_name.column
  port_columns := by
    rw [List.count_eq_zero.mpr port_name.column]
    exact Nat.zero_le 1
  noSeparator := separator_notMem host_name port_name
  supported _ mem := supported_host host_name port_name mem
  port_ne := port_name.1
  port_end ends := port_name.column (List.mem_of_getLast? ends)
  long := by
    have some_host := List.length_pos_iff.mpr host_name.1
    have some_port := List.length_pos_iff.mpr port_name.1
    rw [List.length_append, List.length_cons]
    omega

theorem credentialsForm_url (credentials : Credentials) (host_name : IsName host)
    (port_name : IsName port) :
    CredentialsForm (credentials.url ++ (host ++ 58 :: port)) (addEscaping credentials.username)
      (addEscaping credentials.password) host port where
  body_eq := by simp [Credentials.url]
  username_column := column_notMem_addEscaping credentials.username_secret
  password_column := column_notMem_addEscaping credentials.password_secret
  server_column := host_name.column
  port_column := port_name.column
  separates := by
    left
    refine ⟨?_, ?_, escaped_of_notMem (separator_notMem host_name port_name)⟩
    · rw [escaped_append]
      exact ⟨escaped_addEscaping _, fun column => absurd column (by decide),
        escaped_addEscaping _⟩
    · have password_last := @lastOf_addEscaping credentials.password 58
        credentials.password_secret.1 credentials.password_end
      rw [lastOf] at password_last ⊢
      rw [List.getLast?_append_cons, List.getLast?_cons, Option.getD_some]
      exact password_last
  supported := by
    intro byte mem
    simp only [Credentials.url, List.mem_append, List.mem_cons, List.not_mem_nil, or_false,
      or_assoc] at mem
    rcases mem with inside | rfl | inside | rfl | rest
    · exact supported_addEscaping credentials.username_secret inside
    · exact Or.inr (Or.inr rfl)
    · exact supported_addEscaping credentials.password_secret inside
    · exact Or.inr (Or.inl rfl)
    · apply supported_host host_name port_name
      rwa [List.mem_append, List.mem_cons]
  port_ne := port_name.1
  long := by
    have some_username := List.length_pos_iff.mpr
      (addEscaping_ne_nil credentials.username_secret.1)
    have some_password := List.length_pos_iff.mpr
      (addEscaping_ne_nil credentials.password_secret.1)
    have some_host := List.length_pos_iff.mpr host_name.1
    have some_port := List.length_pos_iff.mpr port_name.1
    simp only [Credentials.url, List.length_append, List.length_cons, List.length_nil]
    omega

/-- The URL of a proxy is accepted and gives back its parts, and no part is cut outside of it. -/
theorem parseHttpProxyData_url (proxy : Proxy) :
    parseHttpProxyData proxy.url =
      some (some ⟨some proxy.host, BitVec.ofNat 32 proxy.port,
        proxy.credentials.map Credentials.username,
        proxy.credentials.map Credentials.password⟩) := by
  have scheme : bytes "http://" ∈ schemes := by simp [schemes]
  have port_name := isName_toDecimal proxy.port
  rw [Proxy.url]
  cases proxy.credentials with
  | none =>
      rw [Option.map_none, Option.getD_none, List.nil_append,
        parse_server scheme (serverForm_url proxy.host_name port_name),
        copied_of_ne_nil proxy.host_name.1, strtol_toDecimal proxy.port_le]
      rfl
  | some credentials =>
      have some_username := addEscaping_ne_nil credentials.username_secret.1
      have some_password := addEscaping_ne_nil credentials.password_secret.1
      rw [Option.map_some, Option.getD_some,
        parse_credentials scheme (credentialsForm_url credentials proxy.host_name port_name),
        copied_of_ne_nil proxy.host_name.1, copied_of_ne_nil some_username,
        copied_of_ne_nil some_password, strtol_toDecimal proxy.port_le, Option.map_some,
        Option.map_some, removeProxyStringEscaping_addEscaping,
        removeProxyStringEscaping_addEscaping]
      rfl

theorem parseHttpProxyData_url_mail :
    parseHttpProxyData (bytes "http://a\\@b:c@d:8080") =
      some (some ⟨some (bytes "d"), 8080, some (bytes "a@b"), some (bytes "c")⟩) := by
  have parsed := parseHttpProxyData_url {
    credentials := some ⟨bytes "a@b", bytes "c", by decide +kernel, by decide +kernel,
      by decide +kernel⟩
    host := bytes "d"
    port := 8080
    host_name := by decide +kernel
    port_pos := by decide
    port_le := by decide }
  exact parsed

end Proxies

section Acceptance

variable {text : ByteString} {result : ProxyData}

/-- The documented form of a proxy URL with its port. -/
inductive Documented (port : ℕ) : ByteString → Prop
  | server {scheme server digits : ByteString} (mem : scheme ∈ schemes) (some_server : server ≠ [])
      (some_digits : digits ≠ []) (decimal : ∀ byte ∈ digits, Numerals.isDecimal byte = true)
      (value : Numerals.value digits = port) : Documented port (scheme ++ (server ++ 58 :: digits))
  | credentials {scheme username password server digits : ByteString} (mem : scheme ∈ schemes)
      (some_username : username ≠ []) (some_password : password ≠ []) (some_server : server ≠ [])
      (some_digits : digits ≠ []) (decimal : ∀ byte ∈ digits, Numerals.isDecimal byte = true)
      (value : Numerals.value digits = port) :
      Documented port
        (scheme ++ ((username ++ 58 :: password) ++ 64 :: (server ++ 58 :: digits)))

theorem Documented.last_digit {port : ℕ} (documented : Documented port text) :
    ∃ digit, text.getLast? = some digit ∧ Numerals.isDecimal digit = true := by
  cases documented with
  | server _ _ some_digits decimal _ =>
      refine ⟨_, ?_, decimal _ (List.getLast_mem some_digits)⟩
      rw [← List.append_assoc, List.getLast?_append_cons, List.getLast?_cons_of_ne_nil some_digits,
        List.getLast?_eq_some_getLast some_digits]
  | credentials _ _ _ _ some_digits decimal _ =>
      refine ⟨_, ?_, decimal _ (List.getLast_mem some_digits)⟩
      rw [← List.append_assoc, List.getLast?_append_cons,
        List.getLast?_cons_of_ne_nil (by simp), List.getLast?_append_cons,
        List.getLast?_cons_of_ne_nil some_digits, List.getLast?_eq_some_getLast some_digits]

/-- A letter is accepted as a port, and the number of it is zero. -/
theorem parse_not_documented :
    parseHttpProxyData (bytes "http://1:a") = some (some ⟨some [49], 0, none, none⟩) ∧
      ¬ ∃ port, 1 ≤ port ∧ port ≤ 65535 ∧ Documented port (bytes "http://1:a") := by
  refine ⟨by decide +kernel, ?_⟩
  rintro ⟨port, _, _, documented⟩
  rcases documented.last_digit with ⟨digit, last, decimal⟩
  have letter : (bytes "http://1:a").getLast? = some 97 := by decide +kernel
  rw [letter] at last
  cases last
  cases decimal

/-- The number that is read from a text of digits. -/
theorem toNat_strtol {digits : ByteString} (decimal : ∀ byte ∈ digits, Numerals.isDecimal byte = true)
    (small : Numerals.value digits < 2 ^ 31) :
    (BitVec.ofInt 32 (strtol digits)).toNat = Numerals.value digits := by
  have number : strtol digits = Numerals.value digits := by
    have all : digits.takeWhile Numerals.isDecimal = digits := List.takeWhile_eq_self_iff.mpr decimal
    have signed : readSign (digits.dropWhile isSpace) = (false, digits) := by
      cases digits with
      | nil => rfl
      | cons digit rest =>
          rcases isSpace_of_isDecimal (decimal digit List.mem_cons_self) with
            ⟨black, notMinus, notPlus⟩
          rw [List.dropWhile_cons_of_neg (by simp [black]), readSign.eq_def]
          split
          next equal => exact absurd (List.cons.inj equal).1 notMinus
          next equal => exact absurd (List.cons.inj equal).1 notPlus
          · rfl
    rw [strtol, signed]
    simp only [all, Bool.false_eq_true, if_false]
    omega
  rw [number, BitVec.ofInt_natCast, BitVec.toNat_ofNat]
  exact Nat.mod_eq_of_lt (by omega)

/-- What is accepted has the separators of one of the two forms, with a part behind the last of
them, and the port is the number at the start of the text in which it stands. -/
theorem parse_accepted (accepted : parseHttpProxyData text = some (some result)) :
    ∃ scheme ∈ schemes, ∃ body port, text = scheme ++ body ∧
      ((∃ server, ServerForm body server port) ∨
        ∃ username password server, CredentialsForm body username password server port) ∧
      result.port = BitVec.ofInt 32 (strtol port) ∧
      ((∀ byte ∈ port, Numerals.isDecimal byte = true) → Numerals.value port < 2 ^ 31 →
        result.port.toNat = Numerals.value port) := by
  rcases parse_cases text with refused | ⟨scheme, mem, body, nonempty, rfl⟩
  · rw [refused] at accepted
    cases accepted
  have notRefused : parseHttpProxyData (scheme ++ body) ≠ some none := by
    rw [accepted]
    simp
  rcases forms_of_parse mem nonempty notRefused with
    ⟨server, port, form⟩ | ⟨username, password, server, port, form⟩
  · rw [parse_server mem form] at accepted
    cases accepted
    exact ⟨scheme, mem, body, port, rfl, Or.inl ⟨server, form⟩, rfl, toNat_strtol⟩
  · rw [parse_credentials mem form] at accepted
    cases accepted
    exact ⟨scheme, mem, body, port, rfl, Or.inr ⟨username, password, server, form⟩, rfl,
      toNat_strtol⟩

theorem parse_accepted_slashes :
    ∃ scheme ∈ schemes, ∃ body port, bytes "http://a:b@c:80//" = scheme ++ body ∧
      ((∃ server, ServerForm body server port) ∨
        ∃ username password server, CredentialsForm body username password server port) ∧
      (80 : BitVec 32) = BitVec.ofInt 32 (strtol port) ∧
      ((∀ byte ∈ port, Numerals.isDecimal byte = true) → Numerals.value port < 2 ^ 31 →
        (80 : BitVec 32).toNat = Numerals.value port) :=
  @parse_accepted _ ⟨some [99], 80, some [97], some [98]⟩ (by decide +kernel)

end Acceptance

end OsConfig.ProxyUtils
