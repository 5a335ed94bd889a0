import FlowPilot.StoreWire

/-! Replies that arrive in pieces. What the server sends reaches the buffer of the connection piece by
piece, cut at any place: `async_read_until` takes in whatever has arrived, so that the buffer can hold
more than the line it waits for, and the read of a body takes no more than the body still lacks. A
reply is read as it was sent, however it is cut, and the next read begins right behind it. A byte is
the character of its value. -/

namespace FlowPilot

namespace Wire

/-- How much of a piece a read takes into the buffer. -/
def Read.wants : Read → List Char → List Char → Nat
  | line, _, piece => piece.length
  | blob length, buffer, _ => length + 2 - buffer.length

/-- A read takes in pieces until the buffer holds enough: what it returns, and the buffer and the
pieces it leaves. It is `none` when the read is left waiting. -/
def Read.await (q : Read) :
    List Char → List (List Char) → Option (List Char × List Char × List (List Char))
  | buffer, [] => (q.take buffer).map (fun p => (p.1, p.2, []))
  | buffer, piece :: pieces =>
      match q.take buffer with
      | some (text, rest) => some (text, rest, piece :: pieces)
      | none =>
          let n := q.wants buffer piece
          -- only a read that is complete leaves a part of a piece
          if n < piece.length then
            (q.take (buffer ++ piece.take n)).map (fun p => (p.1, p.2, piece.drop n :: pieces))
          else q.await (buffer ++ piece) pieces

/-- Runs a reader on a connection: what it returns, and the buffer and the pieces it leaves. -/
def receiving {α : Type} :
    Reader α → List Char → List (List Char) → Option (α × List Char × List (List Char))
  | .done a, buffer, pieces => some (a, buffer, pieces)
  | .call q k, buffer, pieces =>
      (q.await buffer pieces).bind (fun r => receiving (k r.1) r.2.1 r.2.2)

theorem Read.take_wants {q : Read} {buffer piece : List Char}
    (hpart : q.wants buffer piece < piece.length) :
    ∃ text rest, q.take (buffer ++ piece.take (q.wants buffer piece)) = some (text, rest) := by
  cases q with
  | line => exact absurd hpart (Nat.lt_irrefl _)
  | blob length =>
      change length + 2 - buffer.length < piece.length at hpart
      have henough : length + 2 ≤ (buffer ++ piece.take (length + 2 - buffer.length)).length := by
        rw [List.length_append, List.length_take]
        omega
      exact ⟨_, _, by rw [wants, take, if_pos henough]⟩

theorem Read.await_eq {q : Read} {text rest : List Char} (pieces : List (List Char))
    (buffer : List Char) (htake : q.take (buffer ++ pieces.flatten) = some (text, rest)) :
    ∃ buffer' pieces', q.await buffer pieces = some (text, buffer', pieces') ∧
      buffer' ++ pieces'.flatten = rest := by
  induction pieces generalizing buffer with
  | nil =>
      rw [List.flatten_nil, List.append_nil] at htake
      exact ⟨rest, [], by rw [await, htake]; rfl, List.append_nil rest⟩
  | cons piece pieces ih =>
      rw [await]
      cases hnow : q.take buffer with
      | some p =>
          have hlater := (take_append hnow (piece :: pieces).flatten).symm.trans htake
          cases hlater
          exact ⟨p.2, piece :: pieces, rfl, rfl⟩
      | none =>
          dsimp only
          split
          · rename_i hpart
            obtain ⟨text', rest', hcut⟩ := take_wants hpart
            have hwhole : buffer ++ (piece :: pieces).flatten =
                (buffer ++ piece.take (q.wants buffer piece)) ++
                  (piece.drop (q.wants buffer piece) :: pieces).flatten := by
              rw [List.flatten_cons, List.flatten_cons, List.append_assoc, ← List.append_assoc
                (piece.take _), List.take_append_drop]
            rw [hwhole, take_append hcut] at htake
            cases htake
            exact ⟨rest', _, by rw [hcut]; rfl, rfl⟩
          · rw [List.flatten_cons, ← List.append_assoc] at htake
            exact ih _ htake

/-- What a reader returns, and what it leaves for the next one, does not depend on the pieces. -/
theorem receiving_eq {α : Type} {p : Reader α} {a : α} {buffer rest : List Char}
    {pieces : List (List Char)} (hread : reading p (buffer ++ pieces.flatten) = some (a, rest)) :
    ∃ buffer' pieces', receiving p buffer pieces = some (a, buffer', pieces') ∧
      buffer' ++ pieces'.flatten = rest := by
  induction p generalizing buffer pieces with
  | done b =>
      cases hread
      exact ⟨buffer, pieces, rfl, rfl⟩
  | call q k ih =>
      rw [reading] at hread
      obtain ⟨⟨text, rest'⟩, htake, hnext⟩ := Option.bind_eq_some_iff.mp hread
      obtain ⟨buffer', pieces', hawait, hleft⟩ := q.await_eq pieces buffer htake
      rw [← hleft] at hnext
      obtain ⟨buffer'', pieces'', hreceived, hrest⟩ := ih text hnext
      refine ⟨buffer'', pieces'', ?_, hrest⟩
      rw [receiving, hawait]
      exact hreceived

/-! ### Values and their texts -/

mutual

/-- The replies that carry a value: one-line texts contain no line break, integers have 64 bits, and
the length of a bulk string with the two characters behind it fits an `int`. -/
def Resp.IsValue : Resp → Prop
  | .simpleString text => '\r' ∉ text ∧ '\n' ∉ text
  | .error _ => False
  | .integer value => -2 ^ 63 ≤ value ∧ value < 2 ^ 63
  | .bulkString text => text.length ≤ 2 ^ 31 - 3
  | .nil | .nilArray => True
  | .array elements => AreValues elements

def AreValues : List Resp → Prop
  | [] => True
  | r :: rs => r.IsValue ∧ AreValues rs

end

mutual

/-- The number of elements of every array in the reply fits the `int` that counts them. -/
def Resp.CountsFit : Resp → Prop
  | .array elements => elements.length < 2 ^ 31 ∧ AllCountsFit elements
  | _ => True

def AllCountsFit : List Resp → Prop
  | [] => True
  | r :: rs => r.CountsFit ∧ AllCountsFit rs

end

/-- A value as an element of an array: integers are written in decimal, and what has no text of its
own is empty. -/
def Resp.text : Resp → List Char
  | .simpleString text | .bulkString text => text
  | .integer value => numeral value
  | .error _ | .nil | .nilArray | .array _ => []

/-- The reply that carries a value. -/
def Resp.reply : Resp → RedisReply
  | .simpleString text => .simpleString text
  | .integer value => .integer value
  | .bulkString text => .bulkString text
  | .error _ | .nil | .nilArray => .nil
  | .array elements => .array (elements.map Resp.text)

theorem elementText_reply (r : Resp) : elementText r.reply = r.text := by
  cases r <;> rfl

mutual

theorem decoded_eq_reply (r : Resp) (hr : r.IsValue) : r.decoded = .ok r.reply := by
  cases r with
  | error text => exact hr.elim
  | array elements => rw [Resp.decoded, elementTexts_eq elements hr, Resp.reply]
  | _ => rfl

theorem elementTexts_eq (rs : List Resp) (hrs : AreValues rs) :
    elementTexts rs = rs.map Resp.text := by
  cases rs with
  | nil => rfl
  | cons r rs =>
      rw [elementTexts, decoded_eq_reply r hrs.1, elementTexts_eq rs hrs.2, List.map_cons,
        ← elementText_reply]

end

mutual

theorem sound_of_isValue (r : Resp) (hr : r.IsValue) (hcounts : r.CountsFit) : r.Sound := by
  cases r with
  | simpleString text => exact hr.2
  | error text => exact hr.elim
  | integer value => exact hr
  | bulkString text => exact Nat.lt_of_le_of_lt hr (by omega)
  | nil => trivial
  | nilArray => trivial
  | array elements => exact ⟨hcounts.1, allSound_of_areValues elements hr hcounts.2⟩

theorem allSound_of_areValues (rs : List Resp) (hrs : AreValues rs) (hcounts : AllCountsFit rs) :
    AllSound rs := by
  cases rs with
  | nil => trivial
  | cons r rs =>
      exact ⟨sound_of_isValue r hrs.1 hcounts.1, ⟨_, decoded_eq_reply r hrs.1⟩,
        allSound_of_areValues rs hrs.2 hcounts.2⟩

end

theorem areValues_bulk {texts : List (List Char)} (h : ∀ text ∈ texts, text.length ≤ 2 ^ 31 - 3) :
    AreValues (texts.map .bulkString) := by
  induction texts with
  | nil => trivial
  | cons text texts ih =>
      exact ⟨h text List.mem_cons_self, ih (fun t ht => h t (List.mem_cons_of_mem _ ht))⟩

theorem allCountsFit_bulk (texts : List (List Char)) : AllCountsFit (texts.map .bulkString) := by
  induction texts with
  | nil => trivial
  | cons text texts ih => exact ⟨trivial, ih⟩

theorem reply_bulkStrings (texts : List (List Char)) :
    (Resp.array (texts.map .bulkString)).reply = .array texts := by
  rw [Resp.reply, List.map_map]
  exact congrArg RedisReply.array (List.map_id texts)

/-- A value is read from its encoding, however this is cut into pieces, and the next read sees what
follows it. -/
theorem receiving_encode {r : Resp} {depth : Nat} {rest buffer : List Char}
    {pieces : List (List Char)} (hr : r.IsValue) (hcounts : r.CountsFit) (hdepth : r.depth < depth)
    (hsent : buffer ++ pieces.flatten = r.encode ++ rest) :
    ∃ buffer' pieces',
      receiving (parseReply depth) buffer pieces = some (.ok r.reply, buffer', pieces') ∧
        buffer' ++ pieces'.flatten = rest := by
  have hread := reading_encode r (sound_of_isValue r hr hcounts) depth hdepth rest
  rw [← hsent, decoded_eq_reply r hr] at hread
  exact receiving_eq hread

/-- Framing is exact for every value whose arrays can be counted, and for what `write_command_async`
writes. -/
theorem framing_exact :
    (∀ (r : Resp) (depth : Nat) (rest buffer : List Char) (pieces : List (List Char)),
      r.IsValue → r.CountsFit → r.depth < depth → buffer ++ pieces.flatten = r.encode ++ rest →
      ∃ buffer' pieces',
        receiving (parseReply depth) buffer pieces = some (.ok r.reply, buffer', pieces') ∧
          buffer' ++ pieces'.flatten = rest) ∧
    ∀ (args : List (List Char)) (depth : Nat) (rest buffer : List Char) (pieces : List (List Char)),
      args.length < 2 ^ 31 → (∀ arg ∈ args, arg.length ≤ 2 ^ 31 - 3) → 1 < depth →
      buffer ++ pieces.flatten = multiBulk args ++ rest →
      ∃ buffer' pieces',
        receiving (parseReply depth) buffer pieces = some (.ok (.array args), buffer', pieces') ∧
          buffer' ++ pieces'.flatten = rest := by
  constructor
  · intro r depth rest buffer pieces hr hcounts hdepth hsent
    exact receiving_encode hr hcounts hdepth hsent
  · intro args depth rest buffer pieces hcount hargs hdepth hsent
    have hdepthAll : depthAll (args.map .bulkString) + 1 < depth :=
      Nat.lt_of_le_of_lt (depthAll_bulk args) hdepth
    have hcountsFit : (Resp.array (args.map .bulkString)).CountsFit :=
      ⟨by rwa [List.length_map], allCountsFit_bulk args⟩
    rw [← encode_bulkStrings] at hsent
    rw [← reply_bulkStrings]
    exact receiving_encode (areValues_bulk hargs) hcountsFit hdepthAll hsent

/-- A reply with a nested array, cut inside a line break and inside a body that is itself a line
break; the last piece holds the beginning of the next reply. -/
theorem framing_exact_cut :
    ∃ buffer' pieces',
      receiving (parseReply 3) [] [['*', '2', '\r'], ['\n', '$', '2', '\r', '\n', '\r'],
        ['\n', '\r', '\n', '*', '1', '\r', '\n', ':', '7', '\r', '\n', '+', 'O']] =
          some (.ok (.array [['\r', '\n'], []]), buffer', pieces') ∧
        buffer' ++ pieces'.flatten = ['+', 'O'] := by
  have hbody : (Resp.bulkString ['\r', '\n']).IsValue := (by decide : 2 ≤ 2 ^ 31 - 3)
  have hseven : (Resp.integer 7).IsValue := ⟨by decide, by decide⟩
  have hinner : (Resp.array [.integer 7]).CountsFit := ⟨by decide, trivial, trivial⟩
  exact framing_exact.1 (.array [.bulkString ['\r', '\n'], .array [.integer 7]]) 3 ['+', 'O'] [] _
    ⟨hbody, ⟨hseven, trivial⟩, trivial⟩ ⟨by decide, trivial, hinner, trivial⟩ (by decide) (by decide)

/-- An array of more elements than an `int` counts. -/
def longArray : Resp := .array (List.replicate (2 ^ 31) .nil)

theorem areValues_replicate_nil (n : Nat) : AreValues (List.replicate n .nil) := by
  induction n with
  | zero => trivial
  | succ n ih => exact ⟨trivial, ih⟩

theorem depthAll_replicate_nil (n : Nat) : depthAll (List.replicate n .nil) = 0 := by
  induction n with
  | zero => rfl
  | succ n ih => rw [List.replicate_succ, depthAll, ih]; rfl

/-- The parser throws on such an array. -/
theorem framing_fails_longArray :
    longArray.IsValue ∧ longArray.depth < 2 ∧
      ∃ left, receiving (parseReply 2) [] [longArray.encode] = some (.error "stoi", left) := by
  have hcount : toInteger 32 (decimal (2 ^ 31)) = none := by decide +kernel
  refine ⟨areValues_replicate_nil _, ?_, ?_⟩
  · rw [longArray, Resp.depth, depthAll_replicate_nil]
    decide
  · have hencode : longArray.encode = '*' :: decimal (2 ^ 31) ++
        '\r' :: '\n' :: encodeAll (List.replicate (2 ^ 31) .nil) := by
      rw [longArray, Resp.encode, List.length_replicate, List.cons_append]
    have hread : reading (parseReply 2) ([] ++ [longArray.encode].flatten) =
        some (.error "stoi", encodeAll (List.replicate (2 ^ 31) .nil)) := by
      rw [List.nil_append, List.flatten_singleton, hencode, parseReply,
        reading_line (not_mem_cons_decimal (by decide) _)]
      simp only [hcount]
      rfl
    obtain ⟨buffer', pieces', hreceived, -⟩ := receiving_eq hread
    exact ⟨_, hreceived⟩

end Wire

end FlowPilot
