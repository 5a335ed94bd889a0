import FlowPilot.BaseCoroutine
import Mathlib.Data.List.TakeWhile
import Mathlib.Tactic.Positivity

/-! The wire protocol between the engine and Redis, as the class `ImplAsync` speaks it. A request is
written as an array of bulk strings. A reply is read from the connection's buffer by a program of
separate reads, a line or a body of known length, each of which waits until the buffer holds enough.
Replies that Redis writes as arrays of bulk strings are read back as they were written, whatever
texts they contain. -/

namespace FlowPilot

/-- `RedisReply`; the type of the reply decides which of its values is set. -/
inductive RedisReply where
  | simpleString (text : List Char)
  | integer (value : Int)
  | bulkString (text : List Char)
  | array (values : List (List Char))
  | nil
  deriving DecidableEq, Repr

namespace Wire

/-! ### Numbers -/

def isSpace (c : Char) : Bool := c == ' ' || (decide ('\t' ≤ c) && decide (c ≤ '\r'))

/-- A leading sign, and whether it is a minus. -/
def splitSign : List Char → Bool × List Char
  | '-' :: rest => (true, rest)
  | '+' :: rest => (false, rest)
  | text => (false, text)

/-- `std::stoi` and `std::stoll`, which throw when the text does not start with a number or when the
number has more than `bits` bits. What follows the number is ignored. -/
def toInteger (bits : Nat) (text : List Char) : Option Int :=
  let signed := splitSign (text.dropWhile isSpace)
  let digits := signed.2.takeWhile Char.isDigit
  if digits = [] then none
  else
    let number : Int := Nat.ofDigitChars 10 digits 0
    let value := if signed.1 then -number else number
    if -2 ^ (bits - 1) ≤ value ∧ value < 2 ^ (bits - 1) then some value else none

/-- `std::to_string` of a number that is not negative. -/
def decimal (n : Nat) : List Char := Nat.toDigits 10 n

/-- `std::to_string`. -/
def numeral (value : Int) : List Char :=
  if value < 0 then '-' :: decimal value.natAbs else decimal value.natAbs

theorem decimal_isDigit (n : Nat) : ∀ c ∈ decimal n, c.isDigit = true :=
  fun _ hc => Nat.isDigit_of_mem_toDigits (by decide) (by decide) hc

theorem decimal_ne_nil (n : Nat) : decimal n ≠ [] := Nat.toDigits_ne_nil

theorem ne_of_isDigit {c d : Char} (hc : c.isDigit = true) (hd : d.isDigit = false) : c ≠ d := by
  rintro rfl
  exact Bool.false_ne_true (hd.symm.trans hc)

theorem not_isSpace_of_isDigit {c : Char} (hc : c.isDigit = true) : isSpace c = false := by
  have hlow : '0' ≤ c := of_decide_eq_true (Bool.and_eq_true_iff.mp hc).1
  have hhigh : ¬ c ≤ '\r' := fun h => absurd (Char.le_trans hlow h) (by decide)
  simp only [isSpace, beq_eq_false_iff_ne.mpr (ne_of_isDigit hc (by decide : ' '.isDigit = false)),
    hhigh, decide_false, Bool.and_false, Bool.or_self]

theorem takeWhile_decimal (n : Nat) : (decimal n).takeWhile Char.isDigit = decimal n :=
  List.takeWhile_eq_self_iff.mpr (decimal_isDigit n)

theorem splitSign_decimal (n : Nat) : splitSign (decimal n) = (false, decimal n) := by
  obtain ⟨c, rest, hdigits⟩ := List.exists_cons_of_ne_nil (decimal_ne_nil n)
  have hc : c.isDigit = true := decimal_isDigit n c (hdigits ▸ List.mem_cons_self)
  rw [hdigits, splitSign]
  · exact fun _ h => ne_of_isDigit hc (by decide) (List.cons.inj h).1
  · exact fun _ h => ne_of_isDigit hc (by decide) (List.cons.inj h).1

theorem dropWhile_decimal (n : Nat) : (decimal n).dropWhile isSpace = decimal n := by
  obtain ⟨c, rest, hdigits⟩ := List.exists_cons_of_ne_nil (decimal_ne_nil n)
  have hc : c.isDigit = true := decimal_isDigit n c (hdigits ▸ List.mem_cons_self)
  rw [hdigits, List.dropWhile_cons_of_neg]
  simp only [not_isSpace_of_isDigit hc, Bool.false_eq_true, not_false_eq_true]

theorem toInteger_numeral {bits : Nat} {value : Int} (hlow : -2 ^ (bits - 1) ≤ value)
    (hhigh : value < 2 ^ (bits - 1)) : toInteger bits (numeral value) = some value := by
  have hdigits : ∀ n, Nat.ofDigitChars 10 (decimal n) 0 = n :=
    fun _ => Nat.ofDigitChars_ten_toDigits
  by_cases hneg : value < 0
  · have hvalue : -(value.natAbs : Int) = value := by omega
    have hspace : ('-' :: decimal value.natAbs).dropWhile isSpace = '-' :: decimal value.natAbs :=
      List.dropWhile_cons_of_neg (by decide)
    simp only [toInteger, numeral, if_pos hneg, hspace, splitSign, takeWhile_decimal, decimal_ne_nil,
      if_false, hdigits, if_true, hvalue, hlow, hhigh, and_self]
  · have hvalue : (value.natAbs : Int) = value := by omega
    simp only [toInteger, numeral, if_neg hneg, dropWhile_decimal, splitSign_decimal,
      takeWhile_decimal, decimal_ne_nil, if_false, hdigits, Bool.false_eq_true, hvalue, hlow, hhigh,
      and_self, if_true]

theorem toInteger_decimal {n : Nat} (hn : n < 2 ^ 31) : toInteger 32 (decimal n) = some (n : Int) := by
  have hnumeral : numeral (n : Int) = decimal n := by
    rw [numeral, if_neg (by omega), Int.natAbs_natCast]
  rw [← hnumeral]
  exact toInteger_numeral (by omega) (by omega)

/-! ### Reading a reply -/

/-- The reads at which `parse_reply_async` is suspended: `read_line_async`, and the read of a body
of known length with the two characters behind it. -/
inductive Read where
  | line
  | blob (length : Nat)
  deriving DecidableEq, Repr

/-- Whether `async_read_until` finds its delimiter. -/
def hasCrlf : List Char → Bool
  | '\r' :: '\n' :: _ => true
  | _ :: rest => hasCrlf rest
  | [] => false

def trimCrlf (line : List Char) : List Char :=
  if line.getLast? = some '\r' then line.dropLast else line

/-- What a read takes from the buffer, with what it leaves; `none` while the buffer does not hold
enough. `std::getline` stops at the first line feed. -/
def Read.take : Read → List Char → Option (List Char × List Char)
  | line, buffer =>
      if hasCrlf buffer then
        some (trimCrlf (buffer.takeWhile (· != '\n')), (buffer.dropWhile (· != '\n')).drop 1)
      else none
  | blob length, buffer =>
      if length + 2 ≤ buffer.length then some (buffer.take length, buffer.drop (length + 2))
      else none

theorem Read.take_nil (q : Read) : q.take [] = none := by
  cases q with
  | line => rfl
  | blob length => rw [take, if_neg (by rw [List.length_nil]; omega)]

theorem hasCrlf_cons_of {c : Char} {rest : List Char} (h : hasCrlf rest = true) :
    hasCrlf (c :: rest) = true := by
  unfold hasCrlf
  split
  · rfl
  · rename_i heq
    obtain ⟨-, rfl⟩ := List.cons.inj heq
    exact h
  · rename_i heq
    cases heq

theorem hasCrlf_iff {buffer : List Char} :
    hasCrlf buffer = true ↔ ∃ front rest, buffer = front ++ '\r' :: '\n' :: rest := by
  constructor
  · intro h
    fun_induction hasCrlf buffer with
    | case1 rest => exact ⟨[], rest, rfl⟩
    | case2 c rest _ ih =>
        obtain ⟨front, rest', rfl⟩ := ih h
        exact ⟨c :: front, rest', rfl⟩
    | case3 => cases h
  · rintro ⟨front, rest, rfl⟩
    induction front with
    | nil => rfl
    | cons c front ih => exact hasCrlf_cons_of ih

theorem Read.take_append {q : Read} {buffer text rest : List Char}
    (h : q.take buffer = some (text, rest)) (later : List Char) :
    q.take (buffer ++ later) = some (text, rest ++ later) := by
  cases q with
  | line =>
      rw [take] at h
      split at h
      · rename_i hcrlf
        obtain ⟨front, back, rfl⟩ := hasCrlf_iff.mp hcrlf
        have hfound : hasCrlf ((front ++ '\r' :: '\n' :: back) ++ later) = true :=
          hasCrlf_iff.mpr ⟨front, back ++ later, by simp⟩
        obtain ⟨line, tail, hsplit, hline⟩ := List.eq_append_cons_of_mem
          (List.mem_append_right front (List.mem_cons_of_mem '\r' (List.mem_cons_self ..)) :
            '\n' ∈ front ++ '\r' :: '\n' :: back)
        have hpos : ∀ c ∈ line, (c != '\n') = true :=
          fun c hc => bne_iff_ne.mpr (fun heq => hline (heq ▸ hc))
        rw [hsplit] at h hfound ⊢
        rw [List.takeWhile_append_of_pos hpos, List.dropWhile_append_of_pos hpos,
          List.takeWhile_cons_of_neg (by decide), List.dropWhile_cons_of_neg (by decide)] at h
        rw [take, if_pos hfound, List.append_assoc, List.takeWhile_append_of_pos hpos,
          List.dropWhile_append_of_pos hpos, List.cons_append,
          List.takeWhile_cons_of_neg (by decide), List.dropWhile_cons_of_neg (by decide)]
        cases h
        rfl
      · cases h
  | blob length =>
      rw [take] at h
      split at h
      · rename_i hlength
        have hlonger : length + 2 ≤ (buffer ++ later).length := by
          rw [List.length_append]
          omega
        cases h
        rw [take, if_pos hlonger, List.take_append_of_le_length (by omega),
          List.drop_append_of_le_length hlength]
      · cases h

/-- Programs that read from the buffer. -/
abbrev Reader := Prog Read (fun _ => List Char)

/-- What an element of an array reply contributes to `array_value`. -/
def elementText : RedisReply → List Char
  | .bulkString text | .simpleString text => text
  | .integer value => numeral value
  | .array _ | .nil => []

/-- The loop over the elements of an array. An exception ends it. -/
def parseElements (parse : Reader (Except String RedisReply)) :
    Nat → List (List Char) → Reader (Except String RedisReply)
  | 0, values => pure (.ok (.array values))
  | count + 1, values => do
      match ← parse with
      | .error message => pure (.error message)
      | .ok element => parseElements parse count (values ++ [elementText element])

/-- `parse_reply_async`, for replies nested less than `depth` deep. An exception is an error with its
text. -/
def parseReply : Nat → Reader (Except String RedisReply)
  | 0 => pure (.error "nested too deep")
  | depth + 1 => do
      match ← Prog.perform .line with
      | [] => pure (.error "Empty reply from Redis")
      | '+' :: payload => pure (.ok (.simpleString payload))
      | '-' :: payload => pure (.error ("Redis error: " ++ String.ofList payload))
      | ':' :: payload =>
          match toInteger 64 payload with
          | none => pure (.error "stoll")
          | some value => pure (.ok (.integer value))
      | '$' :: payload =>
          match toInteger 32 payload with
          | none => pure (.error "stoi")
          | some length =>
              if length = -1 then pure (.ok .nil)
              else if length < 0 then pure (.error "basic_string::_M_create")
              else do
                let text ← Prog.perform (.blob length.toNat)
                pure (.ok (.bulkString text))
      | '*' :: payload =>
          match toInteger 32 payload with
          | none => pure (.error "stoi")
          | some count =>
              if count = -1 then pure (.ok .nil)
              else if count < 0 then pure (.error "vector::reserve")
              else parseElements (parseReply depth) count.toNat []
      | _ => pure (.error "Unsupported Redis response type")

/-- Runs a reader on what the buffer holds; `none` when it is left waiting for more. -/
def reading {α : Type} : Reader α → List Char → Option (α × List Char)
  | .done a, buffer => some (a, buffer)
  | .call r k, buffer => (r.take buffer).bind (fun p => reading (k p.1) p.2)

theorem reading_bind {α β : Type} (p : Reader α) (f : α → Reader β) (buffer : List Char) :
    reading (p >>= f) buffer = (reading p buffer).bind (fun q => reading (f q.1) q.2) := by
  induction p generalizing buffer with
  | done a => rfl
  | call r k ih =>
      simp only [Prog.call_bind, reading]
      cases r.take buffer with
      | none => rfl
      | some q => exact ih q.1 q.2

/-! ### Writing -/

def bulk (text : List Char) : List Char :=
  '$' :: (decimal text.length ++ '\r' :: '\n' :: (text ++ ['\r', '\n']))

/-- An array of bulk strings: what `write_command_async` writes for a request, and what Redis writes
for a script that returns a table of texts. -/
def multiBulk (texts : List (List Char)) : List Char :=
  '*' :: (decimal texts.length ++ '\r' :: '\n' :: texts.flatMap bulk)

/-- The replies of Redis. -/
inductive Resp where
  | simpleString (text : List Char)
  | error (text : List Char)
  | integer (value : Int)
  | bulkString (text : List Char)
  | nil
  | nilArray
  | array (elements : List Resp)

mutual

def Resp.encode : Resp → List Char
  | .simpleString text => '+' :: (text ++ ['\r', '\n'])
  | .error text => '-' :: (text ++ ['\r', '\n'])
  | .integer value => ':' :: (numeral value ++ ['\r', '\n'])
  | .bulkString text => bulk text
  | .nil => '$' :: (['-', '1'] ++ ['\r', '\n'])
  | .nilArray => '*' :: (['-', '1'] ++ ['\r', '\n'])
  | .array elements => '*' :: (decimal elements.length ++ '\r' :: '\n' :: encodeAll elements)

def encodeAll : List Resp → List Char
  | [] => []
  | r :: rs => r.encode ++ encodeAll rs

end

mutual

/-- What `parse_reply_async` makes of a reply: an error is thrown. -/
def Resp.decoded : Resp → Except String RedisReply
  | .simpleString text => .ok (.simpleString text)
  | .error text => .error ("Redis error: " ++ String.ofList text)
  | .integer value => .ok (.integer value)
  | .bulkString text => .ok (.bulkString text)
  | .nil | .nilArray => .ok .nil
  | .array elements => .ok (.array (elementTexts elements))

/-- What it makes of the elements of an array. -/
def elementTexts : List Resp → List (List Char)
  | [] => []
  | r :: rs =>
      (match r.decoded with
        | .ok value => elementText value
        | .error _ => []) :: elementTexts rs

end

mutual

/-- The replies that Redis sends: one-line texts contain no line break, integers have 64 bits, lengths
fit an `int`, and no element of an array is an error. -/
def Resp.Sound : Resp → Prop
  | .simpleString text | .error text => '\n' ∉ text
  | .integer value => -2 ^ 63 ≤ value ∧ value < 2 ^ 63
  | .bulkString text => text.length < 2 ^ 31
  | .nil | .nilArray => True
  | .array elements => elements.length < 2 ^ 31 ∧ AllSound elements

def AllSound : List Resp → Prop
  | [] => True
  | r :: rs => r.Sound ∧ (∃ value, r.decoded = .ok value) ∧ AllSound rs

end

mutual

def Resp.depth : Resp → Nat
  | .array elements => depthAll elements + 1
  | _ => 0

def depthAll : List Resp → Nat
  | [] => 0
  | r :: rs => max r.depth (depthAll rs)

end

theorem trimCrlf_append_cr (front : List Char) : trimCrlf (front ++ ['\r']) = front := by
  rw [trimCrlf, if_pos List.getLast?_concat, List.dropLast_concat]

theorem take_line {text : List Char} (htext : '\n' ∉ text) (rest : List Char) :
    Read.line.take (text ++ '\r' :: '\n' :: rest) = some (text, rest) := by
  have hline : ∀ c ∈ text ++ ['\r'], (c != '\n') = true := by
    intro c hc
    rw [bne_iff_ne]
    rcases List.mem_append.mp hc with hc | hc
    · exact fun heq => htext (heq ▸ hc)
    · rw [List.mem_singleton.mp hc]
      decide
  have hsplit : text ++ '\r' :: '\n' :: rest = (text ++ ['\r']) ++ '\n' :: rest := by
    rw [List.append_assoc, List.singleton_append]
  rw [Read.take, if_pos (hasCrlf_iff.mpr ⟨text, rest, rfl⟩), hsplit, List.takeWhile_append_of_pos hline,
    List.dropWhile_append_of_pos hline, List.takeWhile_cons_of_neg (by decide),
    List.dropWhile_cons_of_neg (by decide), List.append_nil, trimCrlf_append_cr]
  rfl

theorem take_blob (text rest : List Char) :
    (Read.blob text.length).take (text ++ '\r' :: '\n' :: rest) = some (text, rest) := by
  have hlength : text.length + 2 ≤ (text ++ '\r' :: '\n' :: rest).length := by
    simp only [List.length_append, List.length_cons]
    omega
  rw [Read.take, if_pos hlength, List.take_left, List.drop_append]
  simp

theorem not_mem_cons_decimal {lead : Char} (hlead : lead ≠ '\n') (n : Nat) :
    '\n' ∉ lead :: decimal n := by
  rw [List.mem_cons, not_or]
  exact ⟨Ne.symm hlead,
    fun hmem => ne_of_isDigit (decimal_isDigit n '\n' hmem) (by decide : '\n'.isDigit = false) rfl⟩

theorem not_mem_cons_numeral {lead : Char} (hlead : lead ≠ '\n') (value : Int) :
    '\n' ∉ lead :: numeral value := by
  rw [numeral]
  split
  · rw [List.mem_cons, not_or]
    exact ⟨Ne.symm hlead, not_mem_cons_decimal (by decide) _⟩
  · exact not_mem_cons_decimal hlead _

theorem reading_line {α : Type} {text : List Char} (htext : '\n' ∉ text)
    (k : List Char → Reader α) (rest : List Char) :
    reading (Prog.perform .line >>= k) (text ++ '\r' :: '\n' :: rest) = reading (k text) rest := by
  rw [Prog.perform_bind, reading, take_line htext, Option.bind_some]

mutual

/-- A reply is read as it was written, whatever texts it contains, and nothing behind it is
touched. -/
theorem reading_encode (r : Resp) (hsound : r.Sound) (depth : Nat) (hdepth : r.depth < depth)
    (rest : List Char) :
    reading (parseReply depth) (r.encode ++ rest) = some (r.decoded, rest) := by
  obtain ⟨depth, rfl⟩ := Nat.exists_eq_succ_of_ne_zero (Nat.ne_zero_of_lt hdepth)
  rw [parseReply]
  cases r with
  | simpleString text =>
      rw [Resp.encode, List.cons_append, List.append_assoc]
      exact reading_line (List.not_mem_cons_of_ne_of_not_mem (by decide) hsound) _ rest
  | error text =>
      rw [Resp.encode, List.cons_append, List.append_assoc]
      exact reading_line (List.not_mem_cons_of_ne_of_not_mem (by decide) hsound) _ rest
  | integer value =>
      rw [Resp.encode, List.cons_append, List.append_assoc]
      refine (reading_line (not_mem_cons_numeral (by decide) value) _ rest).trans ?_
      have hvalue : toInteger 64 (numeral value) = some value := toInteger_numeral hsound.1 hsound.2
      simp only [hvalue]
      rfl
  | nil =>
      rw [Resp.encode, List.cons_append, List.append_assoc]
      exact reading_line (by decide : '\n' ∉ ['$', '-', '1']) _ rest
  | nilArray =>
      rw [Resp.encode, List.cons_append, List.append_assoc]
      exact reading_line (by decide : '\n' ∉ ['*', '-', '1']) _ rest
  | bulkString text =>
      have hpos : ¬ (text.length : Int) = -1 ∧ ¬ (text.length : Int) < 0 := by omega
      have hbody : bulk text ++ rest =
          '$' :: decimal text.length ++ '\r' :: '\n' :: (text ++ '\r' :: '\n' :: rest) := by
        simp only [bulk, List.cons_append, List.append_assoc, List.nil_append]
      rw [Resp.encode, hbody, reading_line (not_mem_cons_decimal (by decide) _)]
      simp only [toInteger_decimal hsound, hpos.1, hpos.2, if_false, Prog.perform_bind, reading,
        Int.toNat_natCast, take_blob, Option.bind_some, Prog.pure_eq_done, Resp.decoded]
  | array elements =>
      have hpos : ¬ (elements.length : Int) = -1 ∧ ¬ (elements.length : Int) < 0 := by omega
      rw [Resp.encode, List.cons_append, List.append_assoc]
      refine (reading_line (not_mem_cons_decimal (by decide) _) _ _).trans ?_
      simp only [toInteger_decimal hsound.1, hpos.1, hpos.2, if_false, Int.toNat_natCast]
      exact reading_encodeAll elements hsound.2 depth (Nat.lt_of_succ_lt_succ hdepth) [] rest

theorem reading_encodeAll (rs : List Resp) (hsound : AllSound rs) (depth : Nat)
    (hdepth : depthAll rs < depth) (values : List (List Char)) (rest : List Char) :
    reading (parseElements (parseReply depth) rs.length values) (encodeAll rs ++ rest) =
      some (.ok (.array (values ++ elementTexts rs)), rest) := by
  cases rs with
  | nil => simp [parseElements, reading, encodeAll, elementTexts]
  | cons r rs =>
      obtain ⟨hr, ⟨value, hvalue⟩, hrs⟩ := hsound
      have hmax : r.depth < depth ∧ depthAll rs < depth := max_lt_iff.mp hdepth
      rw [List.length_cons, parseElements, encodeAll, List.append_assoc, reading_bind,
        reading_encode r hr depth hmax.1, Option.bind_some, elementTexts, hvalue]
      dsimp only
      rw [reading_encodeAll rs hrs depth hmax.2, List.append_assoc, List.singleton_append]

end

theorem encodeAll_bulk (texts : List (List Char)) :
    encodeAll (texts.map .bulkString) = texts.flatMap bulk := by
  induction texts with
  | nil => rfl
  | cons text texts ih => rw [List.map_cons, encodeAll, ih, List.flatMap_cons, Resp.encode]

theorem elementTexts_bulk (texts : List (List Char)) :
    elementTexts (texts.map .bulkString) = texts := by
  induction texts with
  | nil => rfl
  | cons text texts ih =>
      rw [List.map_cons, elementTexts, ih]
      rfl

theorem allSound_bulk {texts : List (List Char)} (h : ∀ text ∈ texts, text.length < 2 ^ 31) :
    AllSound (texts.map .bulkString) := by
  induction texts with
  | nil => trivial
  | cons text texts ih =>
      exact ⟨h text List.mem_cons_self, ⟨_, rfl⟩, ih (fun t ht => h t (List.mem_cons_of_mem _ ht))⟩

theorem depthAll_bulk (texts : List (List Char)) : depthAll (texts.map .bulkString) < 1 := by
  induction texts with
  | nil => exact Nat.one_pos
  | cons text texts ih => exact max_lt Nat.one_pos ih

theorem encode_bulkStrings (texts : List (List Char)) :
    (Resp.array (texts.map .bulkString)).encode = multiBulk texts := by
  rw [Resp.encode, List.length_map, encodeAll_bulk, multiBulk]

theorem reading_multiBulk {texts : List (List Char)} (hcount : texts.length < 2 ^ 31)
    (htexts : ∀ text ∈ texts, text.length < 2 ^ 31) (rest : List Char) :
    reading (parseReply 2) (multiBulk texts ++ rest) = some (.ok (.array texts), rest) := by
  have hdecoded : (Resp.array (texts.map .bulkString)).decoded = .ok (.array texts) := by
    rw [Resp.decoded, elementTexts_bulk]
  have hread := reading_encode (.array (texts.map .bulkString))
    ⟨by rwa [List.length_map], allSound_bulk htexts⟩ 2 (Nat.succ_lt_succ (depthAll_bulk texts)) rest
  rwa [encode_bulkStrings, hdecoded] at hread

end Wire

end FlowPilot
