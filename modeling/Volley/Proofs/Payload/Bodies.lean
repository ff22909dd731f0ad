import Volley.Payload.Body
import Volley.Proofs.Payload.Json

/-!
# What payloads say

A payload has the size that was asked for, whatever it says. If the size leaves room for the object
with an empty padding field, the payload is a JSON object, all of it, and the field is filled up
with letters. Otherwise it is the beginning of the object with an empty field, and this is no JSON
at all, because the brace that closes the object is missing.

## Main definitions

* `Payload.spelling`: the characters of a payload before its last brace.
* `Payload.content`: what a payload says.

## Main results

* `Payload.length_of_body`, `Payload.exists_body_of_padding`: the size of a payload, and which
  payloads can be built.
* `Payload.denotes_object`, `Payload.not_denotes_take`: which payloads are JSON.
* `Payload.bodies_are_exact`: all that is to be said of a payload.
-/

namespace Volley

/-! ## Texts of one byte for each character -/

namespace Bytes

/-- The bytes of characters below 128, which take one byte each. -/
def ofAscii (text : List Char) : Bytes :=
  text.map fun c => UInt8.ofNat c.toNat

@[simp]
theorem length_ofAscii (text : List Char) : (ofAscii text).length = text.length :=
  List.length_map _

theorem ofAscii_append (text more : List Char) :
    ofAscii (text ++ more) = ofAscii text ++ ofAscii more :=
  List.map_append

theorem take_ofAscii (n : Nat) (text : List Char) :
    (ofAscii text).take n = ofAscii (text.take n) :=
  List.map_take.symm

/-- A text of characters below 128 has the bytes of `ofAscii`. -/
theorem ofText_ofList {text : List Char} (h : ∀ c ∈ text, c.toNat < 128) :
    ofText (String.ofList text) = ofAscii text := by
  have hbyte : ∀ c ∈ text, String.utf8EncodeChar c = [UInt8.ofNat c.toNat] := by
    intro c hc
    have hone : c.utf8Size = 1 := by
      rw [Char.utf8Size_eq_one_iff, UInt32.le_iff_toNat_le]
      exact Nat.le_of_lt_succ (h c hc)
    exact String.utf8EncodeChar_eq_singleton hone
  rw [ofText, String.toUTF8_eq_toByteArray, String.toByteArray_ofList, List.utf8Encode,
    List.data_toByteArray, List.toList_toArray, List.flatMap_congr hbyte, ofAscii,
    List.map_eq_flatMap]

theorem text?_ofAscii {text : List Char} (h : ∀ c ∈ text, c.toNat < 128) :
    text? (ofAscii text) = some (String.ofList text) := by
  rw [← ofText_ofList h, text?_ofText]

end Bytes

theorem Priority.name_injective : Function.Injective name := by
  intro priority other h
  cases priority <;> cases other <;> first | rfl | exact absurd h (by decide)

namespace Payload

open Json

variable {id : UInt64} {timestamp : Int} {priority : Priority} {size : Nat}

/-! ## Sizes -/

/-- Each letter of `padding` adds one byte to an `object`. -/
theorem length_object (id : UInt64) (timestamp : Int) (priority : Priority) (padding : Nat) :
    (object id timestamp priority padding).length =
      (object id timestamp priority 0).length + padding := by
  simp only [object, List.length_append, List.length_replicate]
  omega

/-- A `body` can be built if its padding is within `maxPadding`. -/
theorem exists_body_of_padding (h : size - (object id timestamp priority 0).length ≤ maxPadding) :
    ∃ bytes, body id timestamp priority size = .ok bytes := by
  unfold body
  simp only
  split
  · exact ⟨_, rfl⟩
  · rw [if_neg (Nat.not_lt.mpr h)]
    exact ⟨_, rfl⟩

/-- A `body` can be built if its size is within `maxPadding`. -/
theorem exists_body (h : size ≤ maxPadding) (id : UInt64) (timestamp : Int)
    (priority : Priority) : ∃ bytes, body id timestamp priority size = .ok bytes :=
  exists_body_of_padding (Nat.le_trans (Nat.sub_le _ _) h)

/-- If the `object` without padding has room in a `body`, the body is the object with the padding
that is missing. -/
theorem eq_object_of_body {bytes : Bytes} (h : body id timestamp priority size = .ok bytes)
    (hroom : (object id timestamp priority 0).length ≤ size) :
    bytes = object id timestamp priority (size - (object id timestamp priority 0).length) := by
  unfold body at h
  simp only at h
  split at h
  · next hle =>
    -- Nothing is cut off, and nothing is missing.
    cases h
    rw [Nat.sub_eq_zero_of_le hle, List.take_of_length_le hroom]
  · split at h
    · cases h
    · cases h
      rfl

/-- Otherwise the `body` is the beginning of the `object`. -/
theorem eq_take_of_body {bytes : Bytes} (h : body id timestamp priority size = .ok bytes)
    (hshort : size < (object id timestamp priority 0).length) :
    bytes = (object id timestamp priority 0).take size := by
  unfold body at h
  simp only [if_pos (Nat.le_of_lt hshort)] at h
  cases h
  rfl

/-- A `body` has exactly the `size` that was asked for. -/
theorem length_of_body {bytes : Bytes} (h : body id timestamp priority size = .ok bytes) :
    bytes.length = size := by
  by_cases hroom : (object id timestamp priority 0).length ≤ size
  · rw [eq_object_of_body h hroom, length_object]
    omega
  · rw [eq_take_of_body h (Nat.lt_of_not_le hroom), List.length_take]
    omega

/-! ## Characters -/

/-- The characters of an `object`, all but the brace that closes it. -/
def spelling (id : UInt64) (timestamp : Int) (priority : Priority) (padding : Nat) : List Char :=
  '{' :: (label "id" ++ ((toString id).toList ++ ',' :: (label "ts" ++
    ((toString timestamp).toList ++ ',' :: (label "priority" ++ (quoted priority.name.toList ++
      ',' :: (label "data" ++ quoted (List.replicate padding 'x'))))))))

/-- What an `object` with some `padding` says, as a JSON value. -/
def content (id : UInt64) (timestamp : Int) (priority : Priority) (padding : Nat) : Value :=
  .object [("id", .number id.toNat 0), ("ts", .number timestamp 0),
    ("priority", .string priority.name),
    ("data", .string (String.ofList (List.replicate padding 'x')))]

theorem isAlpha_of_mem_name (priority : Priority) :
    ∀ c ∈ priority.name.toList, c.isAlpha = true := by
  cases priority <;> simp [Priority.name]

theorem isAlpha_of_mem_padding (padding : Nat) :
    ∀ c ∈ List.replicate padding 'x', c.isAlpha = true := by
  intro c hc
  rw [List.eq_of_mem_replicate hc]
  rfl

/-! ## One closing brace -/

/-- Characters of one byte other than a closing brace. -/
def IsInner (c : Char) : Prop :=
  c.toNat < 128 ∧ c ≠ '}'

instance (c : Char) : Decidable (IsInner c) :=
  inferInstanceAs (Decidable (_ ∧ _))

theorem isInner_of_isAlphanum {c : Char} (h : c.isAlphanum = true) : IsInner c := by
  have hbounds := toNat_of_isAlphanum h
  refine ⟨by omega, ?_⟩
  rintro rfl
  simp at h

theorem isInner_of_isAlpha {text : List Char} (h : ∀ c ∈ text, c.isAlpha = true) :
    ∀ c ∈ text, IsInner c := by
  intro c hc
  exact isInner_of_isAlphanum (by simp [Char.isAlphanum, h c hc])

theorem isInner_of_mem_toString (n : Int) : ∀ c ∈ (toString n).toList, IsInner c := by
  intro c hc
  rcases mem_toString hc with hdigit | rfl
  · exact isInner_of_isAlphanum (by simp [Char.isAlphanum, hdigit])
  · decide

theorem isInner_of_mem_quoted {content : List Char} (h : ∀ c ∈ content, IsInner c) :
    ∀ c ∈ quoted content, IsInner c := by
  have hquote : IsInner '"' := by decide
  simpa [quoted, or_imp, forall_and, hquote] using h

theorem isInner_of_mem_label {name : String} (h : ∀ c ∈ name.toList, c.isAlpha = true) :
    ∀ c ∈ label name, IsInner c := by
  rw [label, List.forall_mem_append]
  exact ⟨isInner_of_mem_quoted (isInner_of_isAlpha h), by simp [IsInner]⟩

/-- The characters of a `spelling` take one byte each, and none of them is a closing brace. -/
theorem isInner_of_mem_spelling (id : UInt64) (timestamp : Int) (priority : Priority)
    (padding : Nat) : ∀ c ∈ spelling id timestamp priority padding, IsInner c := by
  have hid : ∀ c ∈ (toString id).toList, IsInner c := isInner_of_mem_toString id.toNat
  have htimestamp := isInner_of_mem_toString timestamp
  have hname := isInner_of_mem_quoted (isInner_of_isAlpha (isAlpha_of_mem_name priority))
  have hpadding := isInner_of_mem_quoted (isInner_of_isAlpha (isAlpha_of_mem_padding padding))
  have hcomma : IsInner ',' := by decide
  simp only [spelling, List.forall_mem_cons, List.forall_mem_append]
  refine ⟨by decide, ?_, hid, hcomma, ?_, htimestamp, hcomma, ?_, hname, hcomma, ?_, hpadding⟩
  all_goals exact isInner_of_mem_label (by simp)

theorem object_eq (id : UInt64) (timestamp : Int) (priority : Priority) (padding : Nat) :
    object id timestamp priority padding =
      Bytes.ofAscii (spelling id timestamp priority padding ++ ['}']) := by
  unfold object
  -- Everything in front of the padding, as one text.
  generalize hfront :
    s!"\x7b\"id\":{id},\"ts\":{timestamp},\"priority\":\"{priority.name}\",\"data\":\"" = front
  have hspelling : front.toList ++ (List.replicate padding 'x' ++ ['"']) =
      spelling id timestamp priority padding := by
    have hself : ∀ text : String, toString text = text := fun _ => rfl
    rw [← hfront]
    simp [spelling, label, quoted, hself]
  have hinner := isInner_of_mem_spelling id timestamp priority padding
  rw [← hspelling, List.forall_mem_append] at hinner
  have hbytes := Bytes.ofText_ofList fun c hc => (hinner.1 c hc).1
  have hlast : Bytes.ofText (String.ofList ['"', '}']) = Bytes.ofAscii ['"', '}'] :=
    Bytes.ofText_ofList (by simp)
  rw [String.ofList_toList] at hbytes
  have hclosing : "\"\x7d" = String.ofList ['"', '}'] := rfl
  rw [← hspelling, hbytes, hclosing, hlast, List.append_assoc, Bytes.ofAscii_append,
    Bytes.ofAscii_append, Bytes.ofAscii_append]
  simp [Bytes.ofAscii]

/-- The `spelling` is read field by field, each up to the comma or the brace behind it. -/
theorem reads_spelling (id : UInt64) (timestamp : Int) (priority : Priority) (padding : Nat) :
    Reads (spelling id timestamp priority padding ++ ['}'])
      (content id timestamp priority padding) [] := by
  have hid := readsField_toString "id" (by simp) id.toNat
  have htimestamp := readsField_toString "ts" (by simp) timestamp
  have hpriority := readsField_quoted "priority" (by simp) (isAlpha_of_mem_name priority)
  have hdata := readsField_quoted "data" (by simp) (isAlpha_of_mem_padding padding)
  rw [String.ofList_toList] at hpriority
  -- No blank stands between the tokens, so nothing is skipped.
  simp only [spelling, List.cons_append, List.append_assoc]
  exact .object (hid _) (.field (htimestamp _) (.field (hpriority _) (.field (hdata _) .close)))

/-! ## JSON and no JSON -/

/-- An `object` denotes its `content`, and nothing is left behind it. -/
theorem denotes_object (id : UInt64) (timestamp : Int) (priority : Priority) (padding : Nat) :
    Denotes (object id timestamp priority padding) (content id timestamp priority padding) := by
  have hascii : ∀ c ∈ spelling id timestamp priority padding ++ ['}'], c.toNat < 128 := by
    rw [List.forall_mem_append]
    exact ⟨fun c hc => (isInner_of_mem_spelling id timestamp priority padding c hc).1, by simp⟩
  refine ⟨String.ofList (spelling id timestamp priority padding ++ ['}']), [], ?_, ?_, rfl⟩
  · rw [object_eq, Bytes.text?_ofAscii hascii]
  · rw [String.toList_ofList]
    exact reads_spelling id timestamp priority padding

/-- The beginning of an `object` denotes nothing, because no brace closes it. -/
theorem not_denotes_take {padding : Nat} (h : size < (object id timestamp priority padding).length)
    (value : Value) : ¬ Denotes ((object id timestamp priority padding).take size) value := by
  have hinner := isInner_of_mem_spelling id timestamp priority padding
  rw [object_eq, Bytes.length_ofAscii, List.length_append, List.length_singleton] at h
  rw [object_eq, Bytes.take_ofAscii, List.take_append_of_le_length (Nat.le_of_lt_succ h)]
  rintro ⟨text, rest, htext, hreads, -⟩
  -- What is cut off includes the last brace, and there is no other one.
  rw [Bytes.text?_ofAscii fun c hc => (hinner c (List.mem_of_mem_take hc)).1] at htext
  cases htext
  rw [String.toList_ofList] at hreads
  cases size with
  | zero => exact hreads.ne_nil rfl
  | succ size =>
    have hbrace := hreads.mem_of_object
    exact (hinner _ (List.mem_cons_of_mem _ (List.mem_of_mem_take hbrace))).2 rfl

theorem eq_of_content_eq {other : UInt64} {moment : Int} {tier : Priority} {padding more : Nat}
    (h : content other moment tier more = content id timestamp priority padding) :
    other = id ∧ moment = timestamp ∧ tier = priority := by
  simp only [content, Value.object.injEq, List.cons.injEq, Prod.mk.injEq, Value.number.injEq,
    Value.string.injEq, true_and, and_true] at h
  obtain ⟨hid, htimestamp, hname, -⟩ := h
  exact ⟨UInt64.toNat_inj.mp (Int.ofNat_inj.mp hid), htimestamp, Priority.name_injective hname⟩

/-- A `body` denotes the `content` of the object, or nothing. -/
theorem denotes_iff_of_body {bytes : Bytes} (h : body id timestamp priority size = .ok bytes)
    (value : Value) :
    Denotes bytes value ↔ (object id timestamp priority 0).length ≤ size ∧
      value = content id timestamp priority
        (size - (object id timestamp priority 0).length) := by
  by_cases hroom : (object id timestamp priority 0).length ≤ size
  · have hself := denotes_object id timestamp priority
      (size - (object id timestamp priority 0).length)
    rw [eq_object_of_body h hroom]
    constructor
    · intro hvalue
      exact ⟨hroom, hvalue.unique hself⟩
    · rintro ⟨-, rfl⟩
      exact hself
  · have hshort := Nat.lt_of_not_le hroom
    rw [eq_take_of_body h hshort]
    constructor
    · intro hvalue
      exact absurd hvalue (not_denotes_take hshort value)
    · rintro ⟨hle, -⟩
      exact absurd hle hroom

/-- The `body` of an event has exactly the `size` that was asked for. If `bare`, the `object`
without padding, has room in it, the body is the object with the letters that are missing; it ends
with its brace, and it `Denotes` its `content`, the id, timestamp, tier and padding, and nothing
else. Otherwise it is the beginning of `bare`, which is no JSON text. So a body is JSON exactly if
`bare` has room in it, and then no other id, timestamp or tier has the same one. -/
theorem bodies_are_exact (id : UInt64) (timestamp : Int) (priority : Priority) (size : Nat)
    (hsize : size - (object id timestamp priority 0).length ≤ maxPadding) :
    let bare := object id timestamp priority 0
    ∃ bytes, body id timestamp priority size = .ok bytes ∧ bytes.length = size ∧
      (bare.length ≤ size → bytes = object id timestamp priority (size - bare.length) ∧
        bytes.getLast? = some (UInt8.ofNat '}'.toNat)) ∧
      (size < bare.length → bytes = bare.take size) ∧
      (∀ value, Denotes bytes value ↔
        bare.length ≤ size ∧ value = content id timestamp priority (size - bare.length)) ∧
      ((∃ value, Denotes bytes value) ↔ bare.length ≤ size) ∧
      (bare.length ≤ size → ∀ (other : UInt64) (moment : Int) (tier : Priority),
        (object other moment tier 0).length ≤ size → body other moment tier size = .ok bytes →
          other = id ∧ moment = timestamp ∧ tier = priority) := by
  intro bare
  obtain ⟨bytes, hbytes⟩ := exists_body_of_padding hsize
  have hdenotes := denotes_iff_of_body hbytes
  refine ⟨bytes, hbytes, length_of_body hbytes, fun hroom => ?_, eq_take_of_body hbytes, hdenotes,
    ?_, fun hroom other moment tier hother hsame => ?_⟩
  · refine ⟨eq_object_of_body hbytes hroom, ?_⟩
    rw [eq_object_of_body hbytes hroom, object_eq, Bytes.ofAscii_append]
    exact List.getLast?_concat
  · constructor
    · rintro ⟨value, hvalue⟩
      exact ((hdenotes value).mp hvalue).1
    · intro hroom
      exact ⟨_, (hdenotes _).mpr ⟨hroom, rfl⟩⟩
  · -- The same bytes say the same.
    have hvalue := (denotes_iff_of_body hsame _).mpr ⟨hother, rfl⟩
    exact eq_of_content_eq ((hdenotes _).mp hvalue).2

/-- An `object` of fifty-six bytes without padding, in a body of 64 with room for eight letters more
and in one of 55 with room for its beginning only. -/
theorem bodies_are_exact_around_fifty_six :
    ∃ (timestamp : Int) (bytes cut : Bytes),
      timestamp = 1700000000000 ∧ (object 42 timestamp .high 0).length = 56 ∧
      64 - (object 42 timestamp .high 0).length ≤ maxPadding ∧
      body 42 timestamp .high 64 = .ok bytes ∧ bytes.length = 64 ∧
      Denotes bytes (.object [("id", .number 42 0), ("ts", .number timestamp 0),
        ("priority", .string "HIGH"), ("data", .string "xxxxxxxx")]) ∧
      body 42 timestamp .high 55 = .ok cut ∧ cut.length = 55 ∧ ¬ ∃ value, Denotes cut value := by
  have hlength : (object 42 1700000000000 .high 0).length = 56 := by decide
  obtain ⟨bytes, hbytes, hsize, -, -, hdenotes, -⟩ :=
    bodies_are_exact 42 1700000000000 .high 64 (by decide)
  obtain ⟨cut, hcut, hcutSize, -, -, -, hjson, -⟩ :=
    bodies_are_exact 42 1700000000000 .high 55 (by decide)
  refine ⟨_, bytes, cut, rfl, hlength, by decide, hbytes, hsize, ?_, hcut, hcutSize, fun h => ?_⟩
  · rw [hdenotes, hlength]
    exact ⟨by decide, rfl⟩
  · have hle := hjson.mp h
    rw [hlength] at hle
    exact absurd hle (by decide)

end Payload

end Volley
