import MqttClient.Io.ProxySpec

/-! The request for a tunnel as a strict proxy reads it: the target that was meant, the headers
that were meant, and behind them what is sent through the tunnel. -/

namespace MqttClient.Io.Proxy

open Lib Proto

/-- A control character of ASCII. -/
def isControl (c : Char) : Bool := c.toNat ≤ 0x1F || c.toNat == 0x7F

/-- What a proxy is asked for: the target, the headers, and the bytes behind the request. -/
structure Asked where
  host : List Char
  port : Nat
  headers : List (List Char × List Char)
  rest : Bytes
  deriving DecidableEq, Repr

/-- The lines up to the empty one, and what is behind it. A line ends with CR LF and has no
other control characters. -/
def headLines : Nat → Bytes → Option (List (List Char) × Bytes)
  | 0, _ => none
  | fuel + 1, source =>
    let line := takeLine newline source
    match (fromUtf8 line).bind fun text => text.dropSuffix? ['\r', '\n'] with
    | none => none
    | some body =>
      if body.any isControl then none
      else if body.isEmpty then some ([], source.drop line.length)
      else (headLines fuel (source.drop line.length)).map fun (lines, rest) => (body :: lines, rest)

/-- The name of a header and its value. -/
def header (line : List Char) : List Char × List Char :=
  (line.takeWhile (· != ':'), ((line.dropWhile (· != ':')).drop 1).dropWhile (· == ' '))

/-- An address with colons stands in brackets. -/
def unbracket : List Char → List Char
  | '[' :: inner =>
    if inner.getLast? = some ']' ∧ ':' ∈ inner.dropLast then inner.dropLast else '[' :: inner
  | host => host

/-- The host and the port of a target. -/
def target (authority : List Char) : Option (List Char × Nat) :=
  let digits := authority.reverse.takeWhile (· != ':')
  match authority.reverse.dropWhile (· != ':') with
  | [] => none
  | _ :: host =>
    if digits.isEmpty || !digits.all Char.isDigit || host.isEmpty then none
    else some (unbracket host.reverse, Nat.ofDigitChars 10 digits.reverse 0)

/-- How a proxy reads a request for a tunnel. -/
def asked (source : Bytes) : Option Asked :=
  match headLines (source.length + 1) source with
  | some (requestLine :: headers, rest) =>
    match requestLine.splitOn ' ' with
    | [method, authority, version] =>
      if method = "CONNECT".toList ∧ version = "HTTP/1.1".toList then
        (target authority).map fun (host, port) => ⟨host, port, headers.map header, rest⟩
      else none
    | _ => none
  | _ => none

/-! ### Lines -/

theorem newline_not_mem {body : List Char} (clean : body.any isControl = false) :
    newline ∉ utf8 (body ++ ['\r']) := by
  intro member
  have found := (mem_utf8 (c := '\n') (by decide) (by decide) _).mp member
  rcases List.mem_append.mp found with inside | last
  · rw [List.any_eq_false] at clean
    exact clean _ inside (by decide)
  · cases List.mem_singleton.mp last

theorem headLines_line {body : List Char} (clean : body.any isControl = false) (fuel : Nat)
    (rest : Bytes) :
    headLines (fuel + 1) (utf8 (body ++ ['\r', '\n']) ++ rest) =
      if body.isEmpty then some ([], rest)
      else (headLines fuel rest).map fun (lines, rest) => (body :: lines, rest) := by
  have complete : IsLine newline (utf8 (body ++ ['\r', '\n'])) := by
    refine ⟨utf8 (body ++ ['\r']), newline_not_mem clean, ?_⟩
    simp only [utf8_append, utf8_cons, utf8_nil, List.append_assoc]
    rfl
  have text : fromUtf8 (utf8 (body ++ ['\r', '\n'])) = some (body ++ ['\r', '\n']) :=
    (fromUtf8_iff _ _).mpr rfl
  have bare : (body ++ ['\r', '\n']).dropSuffix? ['\r', '\n'] = some body :=
    List.dropSuffix?_eq_some_iff.mpr ⟨_, rfl, by decide⟩
  rw [headLines]
  simp only [takeLine_append complete, text, Option.bind_some, bare, clean, List.drop_left,
    Bool.false_eq_true, if_false]

/-- A request of these lines. -/
def head (lines : List (List Char)) : List Char :=
  lines.flatMap (· ++ ['\r', '\n']) ++ ['\r', '\n']

theorem length_le_head (lines : List (List Char)) : lines.length ≤ (utf8 (head lines)).length := by
  induction lines with
  | nil => exact Nat.zero_le _
  | cons line lines ih =>
    have split : utf8 (head (line :: lines)) =
        utf8 line ++ (utf8 ['\r', '\n'] ++ utf8 (head lines)) := by
      simp only [head, List.flatMap_cons, utf8_append, List.append_assoc]
    have two : (utf8 ['\r', '\n']).length = 2 := by decide
    rw [split, List.length_append, List.length_append, List.length_cons, two]
    omega

/-- The lines of a request are read wherever it stands. -/
theorem headLines_head {lines : List (List Char)}
    (clean : ∀ line ∈ lines, line ≠ [] ∧ line.any isControl = false) {fuel : Nat}
    (enough : lines.length < fuel) (rest : Bytes) :
    headLines fuel (utf8 (head lines) ++ rest) = some (lines, rest) := by
  induction lines generalizing fuel with
  | nil =>
    cases fuel with
    | zero => contradiction
    | succ fuel => exact @headLines_line [] rfl fuel rest
  | cons line lines ih =>
    cases fuel with
    | zero => contradiction
    | succ fuel =>
      obtain ⟨⟨full, bare⟩, further⟩ := List.forall_mem_cons.mp clean
      have split : utf8 (head (line :: lines)) ++ rest =
          utf8 (line ++ ['\r', '\n']) ++ (utf8 (head lines) ++ rest) := by
        simp only [head, List.flatMap_cons, utf8_append, List.append_assoc]
      rw [split, headLines_line bare, ih further (Nat.lt_of_succ_lt_succ enough)]
      simp [full]

/-- No line that is read has a control character. -/
theorem headLines_clean {fuel : Nat} {source rest : Bytes} {lines : List (List Char)}
    (read : headLines fuel source = some (lines, rest)) :
    ∀ line ∈ lines, line.any isControl = false := by
  induction fuel generalizing source lines with
  | zero => cases read
  | succ fuel ih =>
    rw [headLines] at read
    split at read
    · cases read
    · rename_i body _
      split at read
      · cases read
      · rename_i clean
        split at read
        · cases read
          simp
        · obtain ⟨⟨later, left⟩, found, same⟩ := Option.map_eq_some_iff.mp read
          cases same
          exact List.forall_mem_cons.mpr ⟨Bool.eq_false_iff.mpr clean, ih found⟩

/-! ### The target -/

/-- The host as it stands before the port. -/
def bracket (host : List Char) : List Char := if ':' ∈ host then '[' :: (host ++ [']']) else host

theorem authority_toList (targetHost : String) (targetPort : UInt16) :
    (authority targetHost targetPort).toList =
      bracket targetHost.toList ++ ':' :: Nat.toDigits 10 targetPort.toNat := by
  rw [authority, bracket, String.contains_char_eq]
  by_cases colon : ':' ∈ targetHost.toList
  · simp [colon]
  · simp [colon]

theorem unbracket_bracket (host : List Char) : unbracket (bracket host) = host := by
  rw [bracket]
  split
  · rename_i colon
    rw [unbracket, if_pos ⟨by simp, by simpa using colon⟩, List.dropLast_concat]
  · rename_i plain
    rw [unbracket.eq_def]
    split
    · rename_i inner
      apply if_neg
      rintro ⟨-, inside⟩
      exact plain (List.mem_cons_of_mem _ (List.dropLast_subset _ inside))
    · rfl

theorem target_authority {targetHost : String} (named : targetHost.toList ≠ [])
    (targetPort : UInt16) :
    target (authority targetHost targetPort).toList =
      some (targetHost.toList, targetPort.toNat) := by
  have digits : ∀ c ∈ Nat.toDigits 10 targetPort.toNat, c.isDigit = true := by
    intro c member
    exact Nat.isDigit_of_mem_toDigits (by decide) (by decide) member
  have colonless : ∀ c ∈ (Nat.toDigits 10 targetPort.toNat).reverse, (c != ':') = true := by
    intro c member
    have digit := digits c (List.mem_reverse.mp member)
    rw [bne_iff_ne]
    rintro rfl
    cases digit
  have shown : bracket targetHost.toList ≠ [] := by
    rw [bracket]
    split
    · exact List.cons_ne_nil _ _
    · exact named
  have front : ((bracket targetHost.toList).reverse).isEmpty = false := by simpa using shown
  have some : (Nat.toDigits 10 targetPort.toNat).reverse.isEmpty = false := by
    simp
  have all : (Nat.toDigits 10 targetPort.toNat).reverse.all Char.isDigit = true := by
    simpa using digits
  rw [target, authority_toList, List.reverse_append, List.reverse_cons, List.append_assoc,
    List.takeWhile_append_of_pos colonless, List.dropWhile_append_of_pos colonless]
  simp [front, some, all, unbracket_bracket, Nat.ofDigitChars_ten_toDigits]

theorem unbracket_subset (host : List Char) : unbracket host ⊆ host := by
  rw [unbracket.eq_def]
  split
  · split
    · exact List.Subset.trans (List.dropLast_subset _) (List.subset_cons_self _ _)
    · exact List.Subset.refl _
  · exact List.Subset.refl _

theorem unbracket_ne_nil {host : List Char} (named : host ≠ []) : unbracket host ≠ [] := by
  rw [unbracket.eq_def]
  split
  · split
    · rename_i bracketed
      exact List.ne_nil_of_mem bracketed.2
    · exact named
  · exact named

/-- A target that is read names a host, in characters of its own. -/
theorem target_sound {authority host : List Char} {port : Nat}
    (read : target authority = some (host, port)) : host ≠ [] ∧ host ⊆ authority := by
  rw [target] at read
  split at read
  · cases read
  · rename_i colon before found
    split at read
    · cases read
    · rename_i checked
      cases read
      have named : before.reverse ≠ [] := by
        intro empty
        rw [List.reverse_eq_nil_iff.mp empty] at checked
        simp at checked
      have part : before.reverse ⊆ authority := by
        intro c member
        have behind : c ∈ authority.reverse.dropWhile (· != ':') := by
          rw [found]
          exact List.mem_cons_of_mem _ (List.mem_reverse.mp member)
        exact List.mem_reverse.mp ((List.dropWhile_sublist _).subset behind)
      exact ⟨unbracket_ne_nil named, List.Subset.trans (unbracket_subset _) part⟩

/-! ### The request -/

theorem splitOn_word {line word : List Char} (found : word ∈ line.splitOn ' ') :
    word ⊆ line ∧ ' ' ∉ word := by
  induction line generalizing word with
  | nil =>
    obtain rfl : word = [] := by simpa using found
    simp
  | cons c line ih =>
    rw [List.splitOn_cons_eq_if_modifyHead] at found
    by_cases space : c = ' '
    · rw [if_pos (by simpa using space)] at found
      rcases List.mem_cons.mp found with rfl | later
      · simp
      · obtain ⟨part, solid⟩ := ih later
        exact ⟨List.Subset.trans part (List.subset_cons_self _ _), solid⟩
    · rw [if_neg (by simpa using space)] at found
      cases words : line.splitOn ' ' with
      | nil => exact absurd words (List.splitOn_ne_nil _ _)
      | cons first further =>
        rw [words] at found ih
        rcases List.mem_cons.mp found with rfl | later
        · obtain ⟨part, solid⟩ := ih List.mem_cons_self
          refine ⟨List.cons_subset_cons _ part, ?_⟩
          rw [List.mem_cons, not_or]
          exact ⟨Ne.symm space, solid⟩
        · obtain ⟨part, solid⟩ := ih (List.mem_cons_of_mem _ later)
          exact ⟨List.Subset.trans part (List.subset_cons_self _ _), solid⟩

/-- What a proxy reads as a host is not empty, and has neither control characters nor spaces. -/
theorem asked_sound {source : Bytes} {result : Asked} (read : asked source = some result) :
    result.host ≠ [] ∧ ∀ c ∈ result.host, isControl c = false ∧ c ≠ ' ' := by
  rw [asked] at read
  split at read
  · rename_i requestLine headers rest lines
    split at read
    · rename_i method authority version words
      split at read
      · obtain ⟨⟨host, port⟩, found, rfl⟩ := Option.map_eq_some_iff.mp read
        obtain ⟨named, part⟩ := target_sound found
        have word : authority ∈ requestLine.splitOn ' ' := by simp [words]
        obtain ⟨inside, solid⟩ := splitOn_word word
        have clean := headLines_clean lines requestLine List.mem_cons_self
        rw [List.any_eq_false] at clean
        refine ⟨named, ?_⟩
        intro c member
        refine ⟨Bool.eq_false_iff.mpr (clean c (inside (part member))), ?_⟩
        rintro rfl
        exact solid (part member)
      · cases read
    · cases read
  · cases read

/-- A byte that is refused is a character that is refused. -/
theorem encodeChar_refused (c : Char) :
    (String.utf8EncodeChar c).any (fun byte => isAsciiControl byte || byte == 0x20) =
      (isControl c || c == ' ') := by
  have space : (c == ' ') = decide (c.toNat = 0x20) := by
    by_cases same : c = ' '
    · simp [same]
    · have other : c.toNat ≠ 0x20 := fun code => same (Char.toNat_inj.mp code)
      simp [same, other]
  rcases encodeChar_bytes c with ⟨byte, single, low⟩ | ⟨high, -⟩
  · have code : c.toNat = byte.toNat := by
      obtain rfl := encodeChar_injective (single.trans (encodeChar_one rfl low).symm)
      exact toNat_val_ofNat (.inl (Nat.lt_trans low (by decide)))
    rw [single, space, isControl, code]
    simp only [List.any_cons, List.any_nil, Bool.or_false, isAsciiControl,
      UInt8.le_iff_toNat_le, beq_eq_decide, ← UInt8.toNat_inj]
    rfl
  · have large : 0x80 ≤ c.toNat := by
      apply Nat.le_of_not_lt
      intro small
      have single : String.utf8EncodeChar c = [.ofNat c.toNat] := by
        have below : c.val.toNat ≤ 0x7F := Nat.le_of_lt_succ small
        simp only [String.utf8EncodeChar, if_pos below]
        rfl
      have above := high (.ofNat c.toNat) (by simp [single])
      rw [UInt8.toNat_ofNat', Nat.mod_eq_of_lt (Nat.lt_trans small (by decide))] at above
      omega
    have none : (String.utf8EncodeChar c).any (fun byte => isAsciiControl byte || byte == 0x20) =
        false := by
      rw [List.any_eq_false]
      intro byte member
      have above := high byte member
      simp only [isAsciiControl, Bool.or_eq_true, decide_eq_true_eq, UInt8.le_iff_toNat_le,
        beq_iff_eq, ← UInt8.toNat_inj]
      simp
      omega
    rw [none, space, isControl]
    simp
    omega

/-- The check of the host, in characters. -/
theorem invalidHost_iff (targetHost : String) :
    invalidHost targetHost = false ↔ targetHost.toList ≠ [] ∧
      ∀ c ∈ targetHost.toList, isControl c = false ∧ c ≠ ' ' := by
  rw [invalidHost, Bool.or_eq_false_iff, utf8, List.any_flatMap, List.any_eq_false]
  constructor
  · rintro ⟨named, clean⟩
    refine ⟨by simpa [String.isEmpty_iff] using named, ?_⟩
    intro c member
    have allowed := clean c member
    rw [encodeChar_refused] at allowed
    simpa using allowed
  · rintro ⟨named, clean⟩
    refine ⟨by simpa using named, ?_⟩
    intro c member
    rw [encodeChar_refused]
    simpa using clean c member

theorem header_colon {name value : List Char} (plain : ':' ∉ name)
    (solid : value.head? ≠ some ' ') : header (name ++ ':' :: ' ' :: value) = (name, value) := by
  have before : ∀ c ∈ name, (c != ':') = true := by
    intro c member
    rw [bne_iff_ne]
    rintro rfl
    exact plain member
  have stays : value.dropWhile (· == ' ') = value := by
    cases value with
    | nil => rfl
    | cons c value =>
      apply List.dropWhile_cons_of_neg
      simpa using solid
  rw [header, List.takeWhile_append_of_pos before, List.dropWhile_append_of_pos before]
  simp [stays]

/-- An authority has no characters that its host does not have, but for brackets, digits and
the colon. -/
theorem authority_clean {targetHost : String} (valid : invalidHost targetHost = false)
    (targetPort : UInt16) :
    ∀ c ∈ (authority targetHost targetPort).toList, isControl c = false ∧ c ≠ ' ' := by
  obtain ⟨-, clean⟩ := (invalidHost_iff targetHost).mp valid
  have shown : ∀ c ∈ bracket targetHost.toList, isControl c = false ∧ c ≠ ' ' := by
    rw [bracket]
    split
    · simp only [List.mem_cons, List.mem_append, List.not_mem_nil, or_false]
      rintro c (rfl | inside | rfl)
      · decide
      · exact clean c inside
      · decide
    · exact clean
  intro c member
  rw [authority_toList, List.mem_append, List.mem_cons] at member
  rcases member with inside | rfl | digit
  · exact shown c inside
  · decide
  · have code := (isDigit_iff c).mp (Nat.isDigit_of_mem_toDigits (by decide) (by decide) digit)
    refine ⟨?_, ?_⟩
    · simp only [isControl, Bool.or_eq_false_iff, decide_eq_false_iff_not, beq_eq_false_iff_ne]
      omega
    · rintro rfl
      exact absurd code.1 (by decide)

section

variable [Base64]

/-- The text that stands for the credentials. -/
def credentials : ProxyAuthorization → Option (List Char)
  | .none => none
  | .basic username password =>
    some (Base64.encodeBlock (utf8 (username ++ ":" ++ password).toList)).toList

/-- The headers that are meant. -/
def headersOf (targetHost : String) (targetPort : UInt16) (auth : ProxyAuthorization) :
    List (List Char × List Char) :=
  ("Host".toList, (authority targetHost targetPort).toList) ::
    (credentials auth).toList.map fun text =>
      ("Proxy-Authorization".toList, "Basic ".toList ++ text)

/-- The lines of the request. -/
def requestLines (targetHost : String) (targetPort : UInt16) (auth : ProxyAuthorization) :
    List (List Char) :=
  ("CONNECT ".toList ++ (authority targetHost targetPort).toList ++ " HTTP/1.1".toList) ::
    ("Host: ".toList ++ (authority targetHost targetPort).toList) ::
      (credentials auth).toList.map fun text => "Proxy-Authorization: Basic ".toList ++ text

theorem request_toList (targetHost : String) (targetPort : UInt16) (auth : ProxyAuthorization) :
    (request targetHost targetPort auth).toList =
      head (requestLines targetHost targetPort auth) := by
  have middle : " HTTP/1.1\r\nHost: ".toList =
      " HTTP/1.1".toList ++ (['\r', '\n'] ++ "Host: ".toList) := by decide
  cases auth with
  | none =>
    simp only [request, String.toList_append, middle, head, requestLines, credentials,
      Option.toList_none, List.map_nil, List.flatMap_cons, List.flatMap_nil, List.append_assoc]
    rfl
  | basic username password =>
    simp only [request, String.toList_append, middle, head, requestLines, credentials,
      Option.toList_some, List.map_cons, List.map_nil, List.flatMap_cons, List.flatMap_nil,
      List.append_assoc]
    rfl

/-- The letters of an encoded block. -/
def Letters (text : String) : Prop :=
  ∀ c ∈ text.toList, c.isAlphanum = true ∨ c = '+' ∨ c = '/' ∨ c = '='

omit [Base64] in
theorem Letters.clean {text : String} (letters : Letters text) :
    text.toList.any isControl = false := by
  rw [List.any_eq_false]
  intro c member
  rcases letters c member with letter | rfl | rfl | rfl
  · have code : 48 ≤ c.toNat ∧ c.toNat ≤ 122 := by
      rcases Bool.or_eq_true_iff.mp letter with alpha | digit
      · rcases Bool.or_eq_true_iff.mp alpha with upper | lower
        · have range : 65 ≤ c.toNat ∧ c.toNat ≤ 90 := of_decide_eq_true upper
          omega
        · obtain ⟨low, high⟩ := Bool.and_eq_true_iff.mp lower
          have least : 97 ≤ c.toNat := of_decide_eq_true low
          have greatest : c.toNat ≤ 122 := of_decide_eq_true high
          omega
      · have range := (isDigit_iff c).mp digit
        omega
    simp only [isControl, Bool.or_eq_true, decide_eq_true_eq, beq_iff_eq]
    omega
  · decide
  · decide
  · decide

theorem credentials_clean (letters : ∀ bytes, Letters (Base64.encodeBlock bytes))
    {auth : ProxyAuthorization} {text : List Char} (found : text ∈ (credentials auth).toList) :
    text.any isControl = false := by
  cases auth with
  | none => cases found
  | basic username password =>
    obtain rfl := List.mem_singleton.mp found
    exact (letters _).clean

theorem requestLines_clean (letters : ∀ bytes, Letters (Base64.encodeBlock bytes))
    {targetHost : String} (valid : invalidHost targetHost = false) (targetPort : UInt16)
    (auth : ProxyAuthorization) :
    ∀ line ∈ requestLines targetHost targetPort auth,
      line ≠ [] ∧ line.any isControl = false := by
  have plain : (authority targetHost targetPort).toList.any isControl = false := by
    rw [List.any_eq_false]
    intro c member
    exact Bool.eq_false_iff.mp (authority_clean valid targetPort c member).1
  have first : "CONNECT ".toList.any isControl = false := by decide
  have last : " HTTP/1.1".toList.any isControl = false := by decide
  have host : "Host: ".toList.any isControl = false := by decide
  have proxy : "Proxy-Authorization: Basic ".toList.any isControl = false := by decide
  rw [requestLines]
  simp only [List.forall_mem_cons, List.any_append, plain, first, last, host, Bool.or_false]
  refine ⟨⟨by simp, trivial⟩, ⟨by simp, trivial⟩, ?_⟩
  intro line member
  obtain ⟨text, found, rfl⟩ := List.mem_map.mp member
  rw [List.any_append, proxy, credentials_clean letters found]
  exact ⟨by simp, rfl⟩

/-- A proxy reads the request as it is meant. -/
theorem asked_request (letters : ∀ bytes, Letters (Base64.encodeBlock bytes))
    {targetHost : String} (valid : invalidHost targetHost = false) (targetPort : UInt16)
    (auth : ProxyAuthorization) (rest : Bytes) :
    asked (utf8 (request targetHost targetPort auth).toList ++ rest) =
      some ⟨targetHost.toList, targetPort.toNat, headersOf targetHost targetPort auth, rest⟩ := by
  obtain ⟨named, -⟩ := (invalidHost_iff targetHost).mp valid
  have solid : ' ' ∉ (authority targetHost targetPort).toList :=
    fun member => (authority_clean valid targetPort _ member).2 rfl
  have enough : (requestLines targetHost targetPort auth).length <
      (utf8 (head (requestLines targetHost targetPort auth)) ++ rest).length + 1 := by
    have bound := length_le_head (requestLines targetHost targetPort auth)
    rw [List.length_append]
    omega
  have lines := headLines_head (requestLines_clean letters valid targetPort auth) enough rest
  have words : ("CONNECT ".toList ++ (authority targetHost targetPort).toList ++
      " HTTP/1.1".toList).splitOn ' ' =
        ["CONNECT".toList, (authority targetHost targetPort).toList, "HTTP/1.1".toList] := by
    have spaced : "CONNECT ".toList ++ (authority targetHost targetPort).toList ++
        " HTTP/1.1".toList = "CONNECT".toList ++ ' ' ::
          ((authority targetHost targetPort).toList ++ ' ' :: "HTTP/1.1".toList) := by
      rw [List.append_assoc]
      rfl
    rw [spaced, List.splitOn_append_cons_self_of_not_mem (by decide),
      List.splitOn_append_cons_self_of_not_mem solid, List.splitOn_eq_singleton (by decide)]
  have host : header ("Host: ".toList ++ (authority targetHost targetPort).toList) =
      ("Host".toList, (authority targetHost targetPort).toList) := by
    apply @header_colon "Host".toList _ (by decide)
    intro first
    exact solid (List.mem_of_mem_head? first)
  have proxy (text : List Char) : header ("Proxy-Authorization: Basic ".toList ++ text) =
      ("Proxy-Authorization".toList, "Basic ".toList ++ text) := by
    have spelled : "Proxy-Authorization: Basic ".toList =
        "Proxy-Authorization".toList ++ ':' :: ' ' :: "Basic ".toList := by decide
    rw [spelled, List.append_assoc]
    exact header_colon (by decide) (by simp)
  rw [request_toList, asked, lines]
  simp only [requestLines, words, and_self, if_true, target_authority named, Option.map_some,
    List.map_cons, host, List.map_map, Function.comp_def, proxy, headersOf]

/-- Whatever the host, the port and the credentials are, what is written asks a strict proxy for
this target, with these headers and no others, and what follows goes through the tunnel. A host
for which nothing is written is one that no bytes can ask a proxy for. -/
theorem exchange_asks (letters : ∀ bytes, Letters (Base64.encodeBlock bytes))
    (stream : ProxyStream) (targetHost : String) (targetPort : UInt16)
    (auth : ProxyAuthorization) :
    (∀ text, (httpConnectExchange stream targetHost targetPort auth).1 = some text →
      ∀ rest, asked (utf8 text.toList ++ rest) =
        some ⟨targetHost.toList, targetPort.toNat, headersOf targetHost targetPort auth, rest⟩) ∧
      ((httpConnectExchange stream targetHost targetPort auth).1 = none →
        ∀ source result, asked source = some result → result.host ≠ targetHost.toList) := by
  by_cases invalid : invalidHost targetHost = true
  · have nothing : (httpConnectExchange stream targetHost targetPort auth).1 = none := by
      rw [httpConnectExchange, if_pos invalid]
    refine ⟨by simp [nothing], ?_⟩
    intro _ source result read same
    have sound := asked_sound read
    rw [same, ← invalidHost_iff, invalid] at sound
    cases sound
  · have valid : invalidHost targetHost = false := Bool.eq_false_iff.mpr invalid
    have written : (httpConnectExchange stream targetHost targetPort auth).1 =
        some (request targetHost targetPort auth) := by
      rw [httpConnectExchange, if_neg invalid]
      cases stream.refused <;> rfl
    refine ⟨?_, by simp [written]⟩
    intro text found rest
    obtain rfl : request targetHost targetPort auth = text :=
      Option.some.inj (written.symm.trans found)
    exact asked_request letters valid targetPort auth rest

end

/-- The encoding of the credentials `a` and `b`. -/
abbrev encodedPair : Base64 := ⟨fun _ => "YTpi"⟩

theorem exchange_asks_loopback :
    letI := encodedPair
    ∃ text, (httpConnectExchange ⟨none, [], .waiting⟩ "::1" 1883 (.basic "a" "b")).1 = some text ∧
      asked (utf8 text.toList ++ [0x10]) =
        some ⟨"::1".toList, 1883, [("Host".toList, "[::1]:1883".toList),
          ("Proxy-Authorization".toList, "Basic YTpi".toList)], [0x10]⟩ := by
  let := encodedPair
  have letters : ∀ bytes, Letters (Base64.encodeBlock bytes) := by
    intro bytes c member
    have alphanumeric : "YTpi".toList.all Char.isAlphanum = true := by decide
    exact .inl (List.all_eq_true.mp alphanumeric c member)
  have written : (httpConnectExchange ⟨none, [], .waiting⟩ "::1" 1883 (.basic "a" "b")).1 =
      some (request "::1" 1883 (.basic "a" "b")) := by
    rw [httpConnectExchange, if_neg (by decide)]
  have headers : headersOf "::1" 1883 (.basic "a" "b") =
      [("Host".toList, "[::1]:1883".toList),
        ("Proxy-Authorization".toList, "Basic YTpi".toList)] := by
    rw [headersOf, authority_toList]
    decide +kernel
  have asks :=
    (exchange_asks letters ⟨none, [], .waiting⟩ "::1" 1883 (.basic "a" "b")).1 _ written [0x10]
  rw [headers] at asks
  exact ⟨_, written, asks⟩

end MqttClient.Io.Proxy
