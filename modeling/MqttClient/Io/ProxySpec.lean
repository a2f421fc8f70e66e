import MqttClient.Io.Proxy

/-! When the exchange with a proxy opens a tunnel: the lines of the response, read within one
budget of bytes. -/

namespace MqttClient.Io.Proxy

open Lib Proto

theorem isDigit_iff (c : Char) : c.isDigit = true ↔ 48 ≤ c.toNat ∧ c.toNat ≤ 57 := by
  simp only [Char.isDigit, Bool.and_eq_true, decide_eq_true_eq]
  exact Iff.rfl

theorem encodeChar_length {c : Char} (ascii : c.toNat < 0x80) :
    (String.utf8EncodeChar c).length = 1 := by
  have small : c.val.toNat ≤ 0x7F := Nat.le_of_lt_succ ascii
  simp only [String.utf8EncodeChar, if_pos small, List.length_singleton]

/-- A number has digits only, which are of one byte each. -/
theorem parseDigits_some {value number : Nat} {digits : List Char}
    (parsed : parseDigits value digits = some number) :
    (∀ c ∈ digits, c.isDigit = true) ∧ (utf8 digits).length = digits.length := by
  induction digits generalizing value with
  | nil => exact ⟨by simp, rfl⟩
  | cons c digits ih =>
    by_cases digit : c.isDigit = true
    · simp only [parseDigits, digit, if_true] at parsed
      split at parsed
      · obtain ⟨each, length⟩ := ih parsed
        refine ⟨List.forall_mem_cons.mpr ⟨digit, each⟩, ?_⟩
        have bounds := (isDigit_iff c).mp digit
        rw [utf8_cons, List.length_append, encodeChar_length (by omega), length, List.length_cons,
          Nat.add_comm]
      · cases parsed
    · rw [parseDigits, if_neg digit] at parsed
      cases parsed

/-- The value of a digit. -/
def digitOf (c : Char) : Nat := c.toNat - 48

theorem parseDigits_two {a b : Char} (first : a.isDigit = true) (second : b.isDigit = true) :
    parseDigits 0 [a, b] = some (digitOf a * 10 + digitOf b) := by
  have low := (isDigit_iff a).mp first
  have high := (isDigit_iff b).mp second
  have zero : '0'.toNat = 48 := rfl
  simp only [parseDigits, first, second, if_true, zero, Nat.zero_mul, Nat.zero_add, digitOf]
  rw [if_pos (by omega), if_pos (by omega)]

theorem parseDigits_three {a b c : Char} (first : a.isDigit = true) (second : b.isDigit = true)
    (third : c.isDigit = true) :
    parseDigits 0 [a, b, c] = some (digitOf a * 100 + digitOf b * 10 + digitOf c) := by
  have low := (isDigit_iff a).mp first
  have middle := (isDigit_iff b).mp second
  have high := (isDigit_iff c).mp third
  have zero : '0'.toNat = 48 := rfl
  simp only [parseDigits, first, second, third, if_true, zero, Nat.zero_mul, Nat.zero_add, digitOf]
  rw [if_pos (by omega), if_pos (by omega), if_pos (by omega)]
  congr 1
  omega

/-- Three digits that name success. -/
def SuccessCode (status : List Char) : Prop :=
  ∃ a b, status = ['2', a, b] ∧ a.isDigit = true ∧ b.isDigit = true

theorem successCode_iff (status : List Char) :
    ((utf8 status).length = 3 ∧ ∃ number, parseU16 status = some number ∧ 200 ≤ number ∧ number ≤ 299) ↔
      SuccessCode status := by
  constructor
  · rintro ⟨length, number, parsed, least, most⟩
    unfold parseU16 at parsed
    split at parsed
    · cases parsed
    · cases parsed
    · rename_i digits _
      obtain ⟨each, size⟩ := parseDigits_some parsed
      have plus : (String.utf8EncodeChar '+').length = 1 := encodeChar_length (by decide)
      rw [utf8_cons, List.length_append, plus, size] at length
      obtain ⟨a, b, rfl⟩ := List.length_eq_two.mp (show digits.length = 2 by omega)
      have first := each a (by simp)
      have second := each b (by simp)
      rw [parseDigits_two first second] at parsed
      have low := (isDigit_iff a).mp first
      have high := (isDigit_iff b).mp second
      simp only [Option.some.injEq, digitOf] at parsed
      omega
    · obtain ⟨each, size⟩ := parseDigits_some parsed
      rw [size] at length
      obtain ⟨a, b, c, rfl⟩ := List.length_eq_three.mp length
      have first := each a (by simp)
      have second := each b (by simp)
      have third := each c (by simp)
      rw [parseDigits_three first second third] at parsed
      have low := (isDigit_iff a).mp first
      have middle := (isDigit_iff b).mp second
      have high := (isDigit_iff c).mp third
      simp only [Option.some.injEq, digitOf] at parsed
      have two : a.toNat = 50 := by omega
      obtain rfl : a = '2' := Char.toNat_inj.mp two
      exact ⟨b, c, rfl, second, third⟩
  · rintro ⟨a, b, rfl, first, second⟩
    have low := (isDigit_iff a).mp first
    have high := (isDigit_iff b).mp second
    refine ⟨?_, digitOf '2' * 100 + digitOf a * 10 + digitOf b, ?_, ?_, ?_⟩
    · simp only [utf8_cons, utf8_nil, List.append_nil, List.length_append,
        encodeChar_length (show '2'.toNat < 0x80 by decide),
        encodeChar_length (show a.toNat < 0x80 by omega),
        encodeChar_length (show b.toNat < 0x80 by omega)]
    · exact parseDigits_three (by decide) first second
    · have two : digitOf '2' = 2 := rfl
      rw [two]
      omega
    · have two : digitOf '2' = 2 := rfl
      rw [two]
      simp only [digitOf]
      omega

/-- The status line of a response that opens the tunnel. -/
def SuccessStatus (text : List Char) : Prop :=
  ∃ version status more, splitWhitespace text = version :: status :: more ∧
    (version = "HTTP/1.1".toList ∨ version = "HTTP/1.0".toList) ∧ SuccessCode status

theorem statusAccepted_iff (text : List Char) : statusAccepted text = true ↔ SuccessStatus text := by
  unfold statusAccepted SuccessStatus
  match splitWhitespace text with
  | [] => simp
  | [version] => simp
  | version :: status :: more =>
    have code : Option.any (fun status => 200 ≤ status && status ≤ 299)
        (((some status).filter fun status => (utf8 status).length == 3).bind parseU16) = true ↔
        SuccessCode status := by
      rw [← successCode_iff]
      by_cases three : (utf8 status).length = 3
      · cases parsed : parseU16 status <;> simp [three, parsed, Option.filter]
      · simp [three, Option.filter]
    simp only [List.getElem?_cons_zero, List.getElem?_cons_succ, Bool.and_eq_true, code,
      Bool.or_eq_true, beq_iff_eq, Option.some.injEq]
    constructor
    · rintro ⟨named, success⟩
      exact ⟨version, status, more, rfl, named, success⟩
    · rintro ⟨_, _, _, same, named, success⟩
      cases same
      exact ⟨named, success⟩

/-- The line that ends the headers. -/
def EmptyLine (line : Bytes) : Prop := line = [0x0D, newline] ∨ line = [newline]

/-- Header lines, and behind them the empty line. -/
def HeadersEnd (source : Bytes) (length : Nat) : Prop :=
  ∃ (headers : List Bytes) (emptyLine rest : Bytes),
    source = headers.flatten ++ (emptyLine ++ rest) ∧
    (∀ header ∈ headers, IsLine newline header ∧ ¬ EmptyLine header) ∧ EmptyLine emptyLine ∧
    length = headers.flatten.length + emptyLine.length

/-- The stream is closed behind UTF-8 that is within the limit. -/
def Fits (total : Nat) (source : Bytes) (ending : Ending) : Prop :=
  ending = .closed ∧ total + source.length ≤ maxProxyResponseHeaderBytes ∧
    ∃ text, source = utf8 text

theorem utf8_line {line rest : Bytes} (complete : IsLine newline line) :
    (∃ text, line ++ rest = utf8 text) ↔ (∃ text, line = utf8 text) ∧ ∃ text, rest = utf8 text := by
  constructor
  · rintro ⟨text, same⟩
    obtain ⟨body, -, rfl⟩ := complete
    rw [List.append_assoc, List.singleton_append] at same
    obtain ⟨before, c, after, rfl, single, rfl, rfl⟩ := utf8_split same.symm (by decide)
    refine ⟨⟨before ++ [c], ?_⟩, after, rfl⟩
    rw [utf8_append, utf8_cons, single]
    rfl
  · rintro ⟨⟨first, rfl⟩, last, rfl⟩
    exact ⟨first ++ last, (utf8_append first last).symm⟩

theorem fits_line {total : Nat} {line rest : Bytes} {ending : Ending}
    (complete : IsLine newline line) {text : List Char} (read : line = utf8 text) :
    Fits total (line ++ rest) ending ↔ Fits (total + line.length) rest ending := by
  simp only [Fits, utf8_line complete, List.length_append, Nat.add_assoc]
  have here : ∃ text, line = utf8 text := ⟨text, read⟩
  simp only [here, true_and]

/-- What a read of one line can end with. -/
inductive LineRead (total : Nat) (source : Bytes) (ending : Ending) : LineOutcome × Nat → Prop
  | complete {line rest : Bytes} {text : List Char} (split : source = line ++ rest)
    (stopped : IsLine newline line) (read : line = utf8 text)
    (within : total + line.length ≤ maxProxyResponseHeaderBytes) :
    LineRead total source ending (.line text, line.length)
  | last {text : List Char} (closed : ending = .closed) (unstopped : newline ∉ source)
    (read : source = utf8 text)
    (within : total + source.length ≤ maxProxyResponseHeaderBytes) :
    LineRead total source ending (.line text, source.length)
  | refused {error : ProxyError} {used : Nat} (blame : ¬ Fits total source ending)
    (bounded : total + used ≤ maxProxyResponseHeaderBytes + 1) :
    LineRead total source ending (.error error, used)
  | pending (waiting : ending = .waiting)
    (within : total + source.length ≤ maxProxyResponseHeaderBytes) :
    LineRead total source ending (.pending, source.length)

theorem lineOf_some {line : Bytes} {text : List Char} (read : line = utf8 text) :
    lineOf line = .line text := by
  rw [lineOf, (fromUtf8_iff line text).mpr read]

theorem lineOf_none {line : Bytes} (unread : ¬ ∃ text, line = utf8 text) :
    lineOf line = .error ⟨.invalidData, none⟩ := by
  rw [lineOf]
  cases found : fromUtf8 line with
  | none => rfl
  | some text => exact absurd ⟨text, (fromUtf8_iff line text).mp found⟩ unread

/-- A line that uses up the budget is refused. -/
theorem readProxyResponseLine_over {total : Nat} {source line : Bytes} {ending : Ending}
    (within : total ≤ maxProxyResponseHeaderBytes)
    (read : readLine (maxProxyResponseHeaderBytes - total + 1) source ending =
      (lineOf line, maxProxyResponseHeaderBytes - total + 1))
    (long : maxProxyResponseHeaderBytes < total + source.length) :
    LineRead total source ending (readProxyResponseLine total source ending) := by
  have blame : ¬ Fits total source ending := by
    rintro ⟨-, fits, -⟩
    omega
  have bounded : total + (maxProxyResponseHeaderBytes - total + 1) ≤
      maxProxyResponseHeaderBytes + 1 := by omega
  unfold readProxyResponseLine
  simp only [read]
  by_cases decoded : ∃ text, line = utf8 text
  · obtain ⟨text, same⟩ := decoded
    simp only [lineOf_some same]
    rw [if_pos (by omega)]
    exact .refused blame bounded
  · simp only [lineOf_none decoded]
    exact .refused blame bounded

/-- A line within the limit is read up to its end, if it has one. -/
theorem readLine_front {limit : Nat} {source : Bytes} (ending : Ending)
    (short : (takeLine newline source).length < limit) :
    readLine limit source ending =
      if (takeLine newline source).getLast? = some newline then
        (lineOf (takeLine newline source), (takeLine newline source).length)
      else
        match ending with
        | .closed => (lineOf (takeLine newline source), (takeLine newline source).length)
        | .failed message => (.error ⟨.stream, some message⟩, (takeLine newline source).length)
        | .waiting => (.pending, (takeLine newline source).length) := by
  simp only [readLine, takeLine_take, List.take_of_length_le (Nat.le_of_lt short)]
  by_cases stopped : (takeLine newline source).getLast? = some newline
  · rw [if_pos (.inl stopped), if_pos stopped]
  · have cut := not_or.mpr ⟨stopped, Nat.ne_of_lt short⟩
    exact (if_neg cut).trans (if_neg stopped).symm

/-- A line that is longer than the limit is cut there. -/
theorem readLine_cut {limit : Nat} {source : Bytes} (ending : Ending)
    (long : limit ≤ (takeLine newline source).length) :
    readLine limit source ending = (lineOf ((takeLine newline source).take limit), limit) := by
  have length : ((takeLine newline source).take limit).length = limit := List.length_take_of_le long
  simp only [readLine, takeLine_take, length, or_true, if_true]

theorem readProxyResponseLine_spec {total : Nat} (within : total ≤ maxProxyResponseHeaderBytes)
    (source : Bytes) (ending : Ending) :
    LineRead total source ending (readProxyResponseLine total source ending) := by
  have shorter := takeLine_length_le newline source
  by_cases long : maxProxyResponseHeaderBytes - total + 1 ≤ (takeLine newline source).length
  · exact readProxyResponseLine_over within (readLine_cut ending long) (by omega)
  · have read := readLine_front ending (Nat.lt_of_not_le long)
    unfold readProxyResponseLine
    rcases takeLine_cases newline source with ⟨stopped, rest, split⟩ | ⟨unstopped, same⟩
    · generalize takeLine newline source = line at *
      rw [if_pos stopped.getLast?] at read
      simp only [read]
      by_cases decoded : ∃ text, line = utf8 text
      · obtain ⟨text, decoded⟩ := decoded
        simp only [lineOf_some decoded]
        rw [if_neg (by omega)]
        exact .complete split stopped decoded (by omega)
      · simp only [lineOf_none decoded]
        refine .refused ?_ (by omega)
        rintro ⟨-, -, whole⟩
        rw [split, utf8_line stopped] at whole
        exact decoded whole.1
    · have last : source.getLast? ≠ some newline := by
        intro last
        exact unstopped (List.mem_of_getLast? last)
      rw [same] at read long
      rw [if_neg last] at read
      cases ending with
      | closed =>
        simp only [read]
        by_cases decoded : ∃ text, source = utf8 text
        · obtain ⟨text, decoded⟩ := decoded
          simp only [lineOf_some decoded]
          rw [if_neg (by omega)]
          exact .last rfl unstopped decoded (by omega)
        · simp only [lineOf_none decoded]
          exact .refused (fun fits => decoded fits.2.2) (by omega)
      | failed message =>
        simp only [read]
        exact .refused (fun fits => nomatch fits.1) (by omega)
      | waiting =>
        simp only [read]
        exact .pending rfl (by omega)

/-- The line that the loop takes for the end of the headers. -/
theorem emptyLine_iff {line : Bytes} {text : List Char} (read : line = utf8 text) :
    EmptyLine line ↔ text = ['\r', '\n'] ∨ text = ['\n'] := by
  have crlf : [0x0D, newline] = utf8 ['\r', '\n'] := by decide
  have lf : [newline] = utf8 ['\n'] := by decide
  rw [EmptyLine, read, crlf, lf]
  constructor
  · rintro (same | same)
    · exact .inl (utf8_injective same)
    · exact .inr (utf8_injective same)
  · rintro (rfl | rfl)
    · exact .inl rfl
    · exact .inr rfl

theorem EmptyLine.isLine {line : Bytes} (empty : EmptyLine line) : IsLine newline line := by
  rcases empty with rfl | rfl
  · exact ⟨[0x0D], by decide, rfl⟩
  · exact ⟨[], by decide, rfl⟩

/-- Headers without a newline do not end. -/
theorem not_headersEnd {source : Bytes} (unstopped : newline ∉ source) (length : Nat) :
    ¬ HeadersEnd source length := by
  rintro ⟨headers, emptyLine, rest, rfl, -, empty, -⟩
  obtain ⟨body, -, rfl⟩ := empty.isLine
  exact unstopped (by simp)

/-- Behind a header line the headers go on. -/
theorem headersEnd_line {line rest : Bytes} (stopped : IsLine newline line)
    (header : ¬ EmptyLine line) (length : Nat) :
    HeadersEnd (line ++ rest) length ↔ ∃ more, HeadersEnd rest more ∧ length = line.length + more := by
  constructor
  · rintro ⟨headers, emptyLine, later, split, each, empty, size⟩
    cases headers with
    | nil =>
      rw [List.flatten_nil, List.nil_append] at split
      have first := takeLine_append stopped rest
      rw [split, takeLine_append empty.isLine] at first
      exact absurd (first ▸ empty) header
    | cons first headers =>
      rw [List.flatten_cons, List.append_assoc] at split
      have same := takeLine_append stopped rest
      rw [split, takeLine_append (each first (by simp)).1] at same
      subst same
      refine ⟨_, ⟨headers, emptyLine, later, List.append_cancel_left split,
        fun other member => each other (List.mem_cons_of_mem _ member), empty, rfl⟩, ?_⟩
      rw [List.flatten_cons, List.length_append] at size
      omega
  · rintro ⟨_, ⟨headers, emptyLine, later, rfl, each, empty, rfl⟩, rfl⟩
    refine ⟨line :: headers, emptyLine, later, ?_, ?_, empty, ?_⟩
    · rw [List.flatten_cons, List.append_assoc]
    · exact List.forall_mem_cons.mpr ⟨⟨stopped, header⟩, each⟩
    · rw [List.flatten_cons, List.length_append]
      omega

/-- What the loop over the headers can end with. -/
inductive HeadersRead (total : Nat) (source : Bytes) (ending : Ending) : Outcome × Nat → Prop
  | found {length used : Nat} (ends : HeadersEnd source length)
    (within : total + length ≤ maxProxyResponseHeaderBytes)
    (bounded : used ≤ maxProxyResponseHeaderBytes + 1) :
    HeadersRead total source ending (.established, used)
  | exhausted {used : Nat} (fits : Fits total source ending)
    (endless : ∀ length, ¬ HeadersEnd source length)
    (bounded : used ≤ maxProxyResponseHeaderBytes + 1) :
    HeadersRead total source ending (.established, used)
  | refused {error : ProxyError} {used : Nat} (blame : ¬ Fits total source ending)
    (bounded : used ≤ maxProxyResponseHeaderBytes + 1) :
    HeadersRead total source ending (.error error, used)
  | pending {used : Nat} (waiting : ending = .waiting)
    (within : total + source.length ≤ maxProxyResponseHeaderBytes)
    (bounded : used ≤ maxProxyResponseHeaderBytes + 1) :
    HeadersRead total source ending (.pending, used)

/-- The empty line at the front ends the headers. -/
theorem headersEnd_empty {line : Bytes} (rest : Bytes) (empty : EmptyLine line) :
    HeadersEnd (line ++ rest) line.length :=
  ⟨[], line, rest, rfl, by simp, empty, by simp⟩

/-- What holds behind a header line holds with it. -/
theorem HeadersRead.line {total : Nat} {line rest : Bytes} {ending : Ending} {text : List Char}
    {result : Outcome × Nat} (stopped : IsLine newline line) (read : line = utf8 text)
    (header : ¬ EmptyLine line) (later : HeadersRead (total + line.length) rest ending result) :
    HeadersRead total (line ++ rest) ending result := by
  cases later with
  | found ends within bounded =>
    refine .found ((headersEnd_line stopped header _).mpr ⟨_, ends, rfl⟩) ?_ bounded
    omega
  | exhausted fits endless bounded =>
    refine .exhausted ((fits_line stopped read).mpr fits) ?_ bounded
    intro length ends
    obtain ⟨more, ends, -⟩ := (headersEnd_line stopped header length).mp ends
    exact endless more ends
  | refused blame bounded =>
    exact .refused (fun fits => blame ((fits_line stopped read).mp fits)) bounded
  | pending waiting within bounded =>
    refine .pending waiting ?_ bounded
    rw [List.length_append]
    omega

theorem readHeaders_spec {fuel total : Nat} {source : Bytes} (ending : Ending)
    (enough : source.length < fuel) (within : total ≤ maxProxyResponseHeaderBytes) :
    HeadersRead total source ending (readHeaders fuel total source ending) := by
  induction fuel generalizing total source with
  | zero => exact absurd enough (Nat.not_lt_zero _)
  | succ fuel ih =>
    have spec := readProxyResponseLine_spec within source ending
    rw [readHeaders]
    generalize readProxyResponseLine total source ending = result at spec
    cases spec with
    | @complete line rest text split stopped read fits =>
      have filled : text ≠ [] := by
        rintro rfl
        exact stopped.ne_nil read
      dsimp only
      by_cases empty : EmptyLine line
      · have ends := (emptyLine_iff read).mp empty
        rw [if_pos (ends.imp_right .inl), split]
        exact .found (headersEnd_empty rest empty) fits (by omega)
      · rw [if_neg]
        · have positive := List.length_pos_of_ne_nil stopped.ne_nil
          rw [split, List.drop_left]
          refine HeadersRead.line stopped read empty (ih ?_ fits)
          rw [split, List.length_append] at enough
          omega
        · rintro (crlf | lf | none)
          · exact empty ((emptyLine_iff read).mpr (.inl crlf))
          · exact empty ((emptyLine_iff read).mpr (.inr lf))
          · exact filled none
    | @last text closed unstopped read fits =>
      have endless := not_headersEnd unstopped
      have whole : Fits total source ending := ⟨closed, fits, text, read⟩
      dsimp only
      by_cases ended : text = ['\r', '\n'] ∨ text = ['\n'] ∨ text = []
      · rw [if_pos ended]
        exact .exhausted whole endless (by omega)
      · rw [if_neg ended]
        have filled : source ≠ [] := by
          intro none
          rw [none] at read
          exact ended (.inr (.inr (utf8_eq_nil read.symm)))
        have positive := List.length_pos_of_ne_nil filled
        rw [List.drop_length]
        have next : HeadersRead (total + source.length) [] ending
            (readHeaders fuel (total + source.length) [] ending) :=
          ih (by simp only [List.length_nil]; omega) fits
        generalize readHeaders fuel (total + source.length) [] ending = result at next
        -- nothing is left, so that the next line is the empty one of a closed stream
        cases next with
        | found ends => exact absurd ends (not_headersEnd (by simp) _)
        | exhausted _ _ bounded => exact .exhausted whole endless bounded
        | refused blame => exact absurd ⟨closed, fits, [], rfl⟩ blame
        | pending waiting => exact absurd (closed.symm.trans waiting) (by simp)
    | refused blame bounded => exact .refused blame bounded
    | pending waiting fits => exact .pending waiting fits (by omega)

/-- A response that opens the tunnel: a status line of success, header lines and the empty
line, all within the limit. -/
def Response (bytes : Bytes) : Prop :=
  ∃ (statusLine rest : Bytes) (text : List Char) (length : Nat),
    bytes = statusLine ++ rest ∧ IsLine newline statusLine ∧ statusLine = utf8 text ∧
    SuccessStatus text ∧ HeadersEnd rest length ∧
    statusLine.length + length ≤ maxProxyResponseHeaderBytes

/-- The empty line has been reached. -/
def Complete (bytes : Bytes) : Prop :=
  ∃ (statusLine rest : Bytes) (length : Nat),
    bytes = statusLine ++ rest ∧ IsLine newline statusLine ∧ HeadersEnd rest length

/-- The stream is closed before the empty line, behind a status line of success. -/
def Truncated (bytes : Bytes) (ending : Ending) : Prop :=
  Fits 0 bytes ending ∧ (∃ text, takeLine newline bytes = utf8 text ∧ SuccessStatus text) ∧
    ¬ Complete bytes

theorem complete_line {statusLine rest : Bytes} (stopped : IsLine newline statusLine) :
    Complete (statusLine ++ rest) ↔ ∃ length, HeadersEnd rest length := by
  constructor
  · rintro ⟨first, later, length, split, line, ends⟩
    have same := takeLine_append stopped rest
    rw [split, takeLine_append line] at same
    subst same
    rw [List.append_cancel_left split]
    exact ⟨length, ends⟩
  · rintro ⟨length, ends⟩
    exact ⟨statusLine, rest, length, rfl, stopped, ends⟩

theorem not_complete {bytes : Bytes} (unstopped : newline ∉ bytes) : ¬ Complete bytes := by
  rintro ⟨_, rest, length, rfl, -, ends⟩
  rw [List.mem_append, not_or] at unstopped
  exact not_headersEnd unstopped.2 length ends

theorem Response.complete {bytes : Bytes} (response : Response bytes) : Complete bytes := by
  obtain ⟨statusLine, rest, _, length, split, stopped, _, _, ends, _⟩ := response
  exact ⟨statusLine, rest, length, split, stopped, ends⟩

/-- What the read of a response can end with. -/
inductive ResponseRead (bytes : Bytes) (ending : Ending) : Outcome × Nat → Prop
  | opened {used : Nat} (response : Response bytes)
    (bounded : used ≤ maxProxyResponseHeaderBytes + 1) :
    ResponseRead bytes ending (.established, used)
  | truncated {used : Nat} (cut : Truncated bytes ending)
    (bounded : used ≤ maxProxyResponseHeaderBytes + 1) :
    ResponseRead bytes ending (.established, used)
  | refused {error : ProxyError} {used : Nat} (blame : ¬ Truncated bytes ending)
    (bounded : used ≤ maxProxyResponseHeaderBytes + 1) :
    ResponseRead bytes ending (.error error, used)
  | pending {used : Nat} (waiting : ending = .waiting)
    (within : bytes.length ≤ maxProxyResponseHeaderBytes)
    (bounded : used ≤ maxProxyResponseHeaderBytes + 1) :
    ResponseRead bytes ending (.pending, used)

/-- A status line that is not one of success refuses the tunnel. -/
theorem ResponseRead.unaccepted {bytes : Bytes} {ending : Ending} {text : List Char}
    {error : ProxyError} {used : Nat} (line : takeLine newline bytes = utf8 text)
    (failure : ¬ SuccessStatus text) (bounded : used ≤ maxProxyResponseHeaderBytes + 1) :
    ResponseRead bytes ending (.error error, used) := by
  refine .refused ?_ bounded
  rintro ⟨-, ⟨other, same, success⟩, -⟩
  rw [line] at same
  exact failure (utf8_injective same ▸ success)

/-- Behind a status line of success the headers decide. -/
theorem ResponseRead.accepted {statusLine rest : Bytes} {ending : Ending} {text : List Char}
    {result : Outcome × Nat} (stopped : IsLine newline statusLine) (read : statusLine = utf8 text)
    (success : SuccessStatus text) (headers : HeadersRead statusLine.length rest ending result) :
    ResponseRead (statusLine ++ rest) ending result := by
  have whole : Fits 0 (statusLine ++ rest) ending ↔ Fits statusLine.length rest ending := by
    rw [fits_line stopped read, Nat.zero_add]
  have line := takeLine_append stopped rest
  cases headers with
  | found ends within bounded =>
    exact .opened ⟨statusLine, rest, text, _, rfl, stopped, read, success, ends, within⟩ bounded
  | exhausted fits endless bounded =>
    refine .truncated ⟨whole.mpr fits, ⟨text, line.trans read, success⟩, ?_⟩ bounded
    rw [complete_line stopped]
    rintro ⟨length, ends⟩
    exact endless length ends
  | refused blame bounded => exact .refused (fun cut => blame (whole.mp cut.1)) bounded
  | pending waiting within bounded =>
    refine .pending waiting ?_ bounded
    rw [List.length_append]
    exact within

theorem readResponse_spec (bytes : Bytes) (ending : Ending) :
    ResponseRead bytes ending (readResponse bytes ending) := by
  have spec := readProxyResponseLine_spec (Nat.zero_le _) bytes ending
  rw [readResponse]
  generalize readProxyResponseLine 0 bytes ending = result at spec
  cases spec with
  | @complete line rest text split stopped read within =>
    rw [Nat.zero_add] at within
    dsimp only
    have front : takeLine newline bytes = line := by rw [split, takeLine_append stopped]
    by_cases success : SuccessStatus text
    · rw [(statusAccepted_iff text).mpr success]
      simp only [Bool.not_true, Bool.false_eq_true, if_false]
      have headers : HeadersRead line.length rest ending
          (readHeaders (bytes.length + 1) line.length rest ending) := by
        refine readHeaders_spec ending ?_ within
        rw [split, List.length_append]
        omega
      have dropped : bytes.drop line.length = rest := by rw [split, List.drop_left]
      rw [dropped]
      have all := ResponseRead.accepted stopped read success headers
      rwa [← split] at all
    · have failure := mt (statusAccepted_iff text).mp success
      rw [if_pos (by simpa using failure)]
      exact .unaccepted (front.trans read) success (by omega)
  | @last text closed unstopped read within =>
    rw [Nat.zero_add] at within
    dsimp only
    have front : takeLine newline bytes = bytes := by
      rcases takeLine_cases newline bytes with ⟨⟨body, -, line⟩, rest, split⟩ | ⟨-, same⟩
      · rw [split, line] at unstopped
        simp at unstopped
      · exact same
    by_cases success : SuccessStatus text
    · rw [(statusAccepted_iff text).mpr success]
      simp only [Bool.not_true, Bool.false_eq_true, if_false]
      have headers : HeadersRead bytes.length [] ending
          (readHeaders (bytes.length + 1) bytes.length [] ending) :=
        readHeaders_spec ending (Nat.succ_pos _) within
      rw [List.drop_length]
      have cut : Truncated bytes ending :=
        ⟨⟨closed, by omega, text, read⟩, ⟨text, front.trans read, success⟩, not_complete unstopped⟩
      generalize readHeaders (bytes.length + 1) bytes.length [] ending = result at headers
      cases headers with
      | found _ _ bounded => exact .truncated cut bounded
      | exhausted _ _ bounded => exact .truncated cut bounded
      | refused blame => exact absurd ⟨closed, within, [], rfl⟩ blame
      | pending waiting => exact absurd (closed.symm.trans waiting) (by simp)
    · have failure := mt (statusAccepted_iff text).mp success
      rw [if_pos (by simpa using failure)]
      exact .unaccepted (front.trans read) success (by omega)
  | refused blame bounded => exact .refused (fun cut => blame cut.1) (by omega)
  | pending waiting within => exact .pending waiting (by omega) (by omega)

variable [Base64]

/-- What is expected of the exchange on a stream. -/
structure Correct (stream : ProxyStream) (targetHost : String) (targetPort : UInt16)
    (auth : ProxyAuthorization) : Prop where
  opened : (httpConnectExchange stream targetHost targetPort auth).2.1 = .established →
    Response stream.bytes
  ended : stream.ending ≠ .waiting → ¬ Complete stream.bytes →
    ∃ error, (httpConnectExchange stream targetHost targetPort auth).2.1 = .error error
  finishes : (httpConnectExchange stream targetHost targetPort auth).2.1 ≠ .diverge
  waits : (httpConnectExchange stream targetHost targetPort auth).2.1 = .pending →
    stream.ending = .waiting ∧ stream.bytes.length ≤ maxProxyResponseHeaderBytes
  bounded : (httpConnectExchange stream targetHost targetPort auth).2.2 ≤
    maxProxyResponseHeaderBytes + 1

/-- An exchange that fails before the response is as expected. -/
theorem correct_unread {stream : ProxyStream} {targetHost : String} {targetPort : UInt16}
    {auth : ProxyAuthorization} {written : Option String} {error : ProxyError}
    (exchange : httpConnectExchange stream targetHost targetPort auth = (written, .error error, 0)) :
    Correct stream targetHost targetPort auth := by
  constructor
  · rw [exchange]
    intro established
    cases established
  · rw [exchange]
    exact fun _ _ => ⟨error, rfl⟩
  · rw [exchange]
    simp
  · rw [exchange]
    intro pending
    cases pending
  · rw [exchange]
    exact Nat.zero_le _

variable {stream : ProxyStream} {targetHost : String}

theorem exchange_read (targetPort : UInt16) (auth : ProxyAuthorization)
    (valid : invalidHost targetHost = false) (written : stream.refused = none) :
    ResponseRead stream.bytes stream.ending
      (httpConnectExchange stream targetHost targetPort auth).2 := by
  have exchange : (httpConnectExchange stream targetHost targetPort auth).2 =
      readResponse stream.bytes stream.ending := by
    simp only [httpConnectExchange, valid, Bool.false_eq_true, if_false, written]
  rw [exchange]
  exact readResponse_spec stream.bytes stream.ending

/-- A response that is cut short opens a tunnel all the same. -/
theorem Truncated.not_correct (targetPort : UInt16) (auth : ProxyAuthorization)
    (valid : invalidHost targetHost = false) (written : stream.refused = none)
    (cut : Truncated stream.bytes stream.ending) :
    ¬ Correct stream targetHost targetPort auth := by
  intro correct
  have closed : stream.ending ≠ .waiting := by
    rw [cut.1.1]
    simp
  obtain ⟨error, failed⟩ := correct.ended closed cut.2.2
  have spec := exchange_read targetPort auth valid written
  generalize (httpConnectExchange stream targetHost targetPort auth).2 = result at spec failed
  cases spec with
  | opened => cases failed
  | truncated => cases failed
  | refused blame => exact blame cut
  | pending => cases failed

theorem correct_whole (targetPort : UInt16) (auth : ProxyAuthorization)
    (valid : invalidHost targetHost = false) (written : stream.refused = none)
    (whole : ¬ Truncated stream.bytes stream.ending) :
    Correct stream targetHost targetPort auth := by
  have spec := exchange_read targetPort auth valid written
  constructor
  all_goals generalize (httpConnectExchange stream targetHost targetPort auth).2 = result at spec
  case opened =>
    intro established
    cases spec with
    | opened response => exact response
    | truncated cut => exact absurd cut whole
    | refused => cases established
    | pending => cases established
  case ended =>
    intro stopped incomplete
    cases spec with
    | opened response => exact absurd response.complete incomplete
    | truncated cut => exact absurd cut whole
    | refused => exact ⟨_, rfl⟩
    | pending waiting => exact absurd waiting stopped
  case finishes => cases spec <;> simp
  case waits =>
    intro pending
    cases spec with
    | opened => cases pending
    | truncated => cases pending
    | refused => cases pending
    | pending waiting within => exact ⟨waiting, within⟩
  case bounded => cases spec <;> assumption

/-- The exchange is as expected unless a tunnel is opened on a response that is cut short. -/
theorem httpConnectExchange_correct_iff (stream : ProxyStream) (targetHost : String)
    (targetPort : UInt16) (auth : ProxyAuthorization) :
    Correct stream targetHost targetPort auth ↔
      ¬ (invalidHost targetHost = false ∧ stream.refused = none ∧
        Truncated stream.bytes stream.ending) := by
  constructor
  · rintro correct ⟨valid, written, cut⟩
    exact cut.not_correct targetPort auth valid written correct
  · intro whole
    by_cases invalid : invalidHost targetHost = true
    · apply correct_unread
      rw [httpConnectExchange, if_pos invalid]
    · have valid : invalidHost targetHost = false := Bool.eq_false_iff.mpr invalid
      cases refused : stream.refused with
      | some message =>
        apply correct_unread
        simp only [httpConnectExchange, valid, Bool.false_eq_true, if_false, refused]
        rfl
      | none =>
        apply correct_whole targetPort auth valid refused
        intro cut
        exact whole ⟨valid, refused, cut⟩

omit [Base64] in
/-- A proxy that closes the stream behind its status line is taken for a tunnel. -/
theorem httpConnectExchange_cut_short :
    ¬ @Correct ⟨fun _ => ""⟩ ⟨none, [utf8 "HTTP/1.1 200 OK\r\n".toList], .closed⟩ "example.com" 443
      .none := by
  have stopped : IsLine newline (utf8 "HTTP/1.1 200 OK\r\n".toList) :=
    ⟨utf8 "HTTP/1.1 200 OK\r".toList, by decide, by decide⟩
  have line := takeLine_append stopped []
  have success : SuccessStatus "HTTP/1.1 200 OK\r\n".toList :=
    ⟨"HTTP/1.1".toList, ['2', '0', '0'], [['O', 'K']], by decide, .inl rfl, '0', '0', rfl,
      by decide, by decide⟩
  have cut : Truncated (utf8 "HTTP/1.1 200 OK\r\n".toList ++ []) .closed := by
    refine ⟨⟨rfl, by decide, _, List.append_nil _⟩, ⟨_, line, success⟩, ?_⟩
    intro complete
    obtain ⟨length, ends⟩ := (complete_line stopped).mp complete
    exact not_headersEnd (by simp) length ends
  exact @Truncated.not_correct ⟨fun _ => ""⟩ _ _ 443 .none (by decide) rfl cut

end MqttClient.Io.Proxy
