import Mathlib.Data.List.Forall2
import Volley.Payload.Sizes
import Volley.Proofs.Text

/-!
# Reading payload sizes

A list of payload sizes is read from text part by part. Either every part is a size, and the sizes
are those of the parts in order; or the text is refused for the first part that is none; or there
are no parts at all, and it is refused for that. So whatever white space and whatever empty parts
somebody puts between sizes, they come back as they were.

## Main definitions

* `PayloadSizes.IsSize`: a part that is a size.
* `PayloadSizes.FirstNonSize`: the part that a text is refused for.
* `PayloadSizes.Piece`: what may stand between two commas of a list.

## Main results

* `PayloadSizes.parse_eq_ok_iff`, `PayloadSizes.parse_eq_invalid_iff` and
  `PayloadSizes.parse_eq_empty_iff`: what comes of a text.
* `PayloadSizes.parse_ofPieces`: sizes that are written with padding are read back.
* `PayloadSizes.reads_comma_parts`: all of this.
-/

namespace Volley.PayloadSizes

variable {parts : List (List Char)} {part : List Char}

/-! ## Parts -/

/-- A part is a size if it is an unsigned number of 64 bits, by `Text.Unsigned`. -/
def IsSize (part : List Char) : Prop :=
  ∃ size : UInt64, Text.Unsigned part size.toNat

/-- The first of the `parts` of a list that is not a size. -/
def FirstNonSize (parts : List (List Char)) (part : List Char) : Prop :=
  ∃ before after, parts = before ++ part :: after ∧
    (∀ earlier ∈ before, IsSize earlier) ∧ ¬IsSize part

theorem parsePart_eq_ok_iff {size : UInt64} :
    parsePart part = .ok size ↔ Text.Unsigned part size.toNat := by
  -- A word is never above the limit.
  have hread : Text.unsigned? maxWord part = some size.toNat ↔ Text.Unsigned part size.toNat := by
    rw [Text.unsigned?_eq_some_iff, and_iff_left (toNat_le_maxWord size)]
  rw [← hread, parsePart]
  cases hvalue : Text.unsigned? maxWord part with
  | none => exact iff_of_false nofun nofun
  | some value =>
    rw [Except.ok.injEq, Option.some.injEq]
    constructor
    · rintro rfl
      exact (toNat_ofNat_of_le (Text.le_of_unsigned? hvalue)).symm
    · rintro rfl
      exact UInt64.ofNat_toNat

theorem parsePart_eq_error_iff {e : Error} :
    parsePart part = .error e ↔ ¬IsSize part ∧ e = .invalid (String.ofList part) := by
  cases hpart : parsePart part with
  | ok size => exact iff_of_false nofun fun h => h.1 ⟨size, parsePart_eq_ok_iff.mp hpart⟩
  | error refusal =>
    have hrefusal : refusal = .invalid (String.ofList part) := by
      unfold parsePart at hpart
      split at hpart
      · cases hpart
      · exact (Except.error.inj hpart).symm
    have hnot : ¬IsSize part := by
      rintro ⟨size, hsize⟩
      rw [parsePart_eq_ok_iff.mpr hsize] at hpart
      cases hpart
    rw [Except.error.injEq, and_iff_right hnot, hrefusal, eq_comm]

theorem firstNonSize_cons {first : List Char} {rest : List (List Char)} :
    FirstNonSize (first :: rest) part ↔
      ¬IsSize first ∧ part = first ∨ IsSize first ∧ FirstNonSize rest part := by
  constructor
  · rintro ⟨before, after, hsplit, hbefore, hnot⟩
    rcases List.cons_eq_append_iff.mp hsplit with ⟨rfl, hhead⟩ | ⟨others, rfl, hrest⟩
    · obtain ⟨rfl, -⟩ := List.cons.inj hhead
      exact .inl ⟨hnot, rfl⟩
    · obtain ⟨hfirst, hothers⟩ := List.forall_mem_cons.mp hbefore
      exact .inr ⟨hfirst, others, after, hrest, hothers, hnot⟩
  · rintro (⟨hnot, rfl⟩ | ⟨hfirst, before, after, rfl, hbefore, hnot⟩)
    · exact ⟨[], rest, rfl, nofun, hnot⟩
    · exact ⟨first :: before, after, rfl, List.forall_mem_cons.mpr ⟨hfirst, hbefore⟩, hnot⟩

/-- By `parseParts`, parts are refused for the `FirstNonSize` among them. -/
theorem parseParts_eq_error_iff {e : Error} :
    parseParts parts = .error e ↔
      ∃ part, FirstNonSize parts part ∧ e = .invalid (String.ofList part) := by
  induction parts with
  | nil =>
    refine iff_of_false nofun ?_
    rintro ⟨part, ⟨before, after, hsplit, -⟩, -⟩
    exact List.append_ne_nil_of_right_ne_nil before (List.cons_ne_nil part after) hsplit.symm
  | cons first rest ih =>
    simp only [firstNonSize_cons]
    cases hfirst : parsePart first with
    | error refusal =>
      obtain ⟨hnot, hrefusal⟩ := parsePart_eq_error_iff.mp hfirst
      simp only [parseParts, hfirst, hrefusal, hnot, Except.error.injEq, not_false_eq_true,
        true_and, false_and, or_false, exists_eq_left]
      exact eq_comm
    | ok size =>
      have hsize : IsSize first := ⟨size, parsePart_eq_ok_iff.mp hfirst⟩
      have hlater : parseParts (first :: rest) = .error e ↔ parseParts rest = .error e := by
        cases hrest : parseParts rest <;> simp only [parseParts, hfirst, hrest, reduceCtorEq]
      simp only [hlater, ih, hsize, not_true_eq_false, false_and, true_and, false_or]

/-- By `parseParts`, parts are read if all of them are sizes, and give these `sizes` in order. -/
theorem parseParts_eq_ok_iff_forall₂ {sizes : List UInt64} :
    parseParts parts = .ok sizes ↔
      List.Forall₂ (fun part size => Text.Unsigned part size.toNat) parts sizes := by
  simp only [parseParts_eq_ok_iff, ← List.forall₂_eq_eq_eq, List.forall₂_map_left_iff,
    List.forall₂_map_right_iff, parsePart_eq_ok_iff]

/-- Every part that `parseParts` reads is a size. -/
theorem isSize_of_parseParts {sizes : List UInt64} (h : parseParts parts = .ok sizes) :
    ∀ part ∈ parts, IsSize part := by
  intro part hpart
  have hmem : parsePart part ∈ sizes.map .ok := by
    rw [← parseParts_eq_ok_iff.mp h]
    exact List.mem_map_of_mem hpart
  obtain ⟨size, -, hsize⟩ := List.mem_map.mp hmem
  exact ⟨size, parsePart_eq_ok_iff.mp hsize.symm⟩

/-! ## Texts -/

theorem ofList_eq_ok_iff {list : List UInt64} {sizes : PayloadSizes} :
    ofList list = .ok sizes ↔ list = sizes.toList := by
  unfold ofList
  split
  · next hnil =>
    refine iff_of_false nofun fun h => ?_
    exact sizes.ne_nil (h ▸ hnil)
  · constructor
    · rintro ⟨rfl⟩
      rfl
    · rintro rfl
      rfl

theorem ofList_eq_error_iff {list : List UInt64} {e : Error} :
    ofList list = .error e ↔ list = [] ∧ e = .empty := by
  unfold ofList
  split
  · next hnil => rw [Except.error.injEq, and_iff_right hnil, eq_comm]
  · next hcons => exact iff_of_false nofun fun h => hcons h.1

section Parse

variable {text : String}

theorem parse_eq_ok_iff {sizes : PayloadSizes} :
    parse text = .ok sizes ↔
      List.Forall₂ (fun part size => Text.Unsigned part size.toNat)
        (Text.commaParts text.toList) sizes.toList := by
  rw [← parseParts_eq_ok_iff_forall₂, parse, Text.listItems_eq_commaParts]
  cases parseParts (Text.commaParts text.toList) with
  | error e => exact iff_of_false nofun nofun
  | ok list => rw [Except.ok.injEq, ofList_eq_ok_iff]

/-- A text is refused as `invalid` for the `FirstNonSize` among its `Text.commaParts`. -/
theorem parse_eq_invalid_iff {part : String} :
    parse text = .error (.invalid part) ↔
      FirstNonSize (Text.commaParts text.toList) part.toList := by
  have hparts : parseParts (Text.commaParts text.toList) = .error (.invalid part) ↔
      FirstNonSize (Text.commaParts text.toList) part.toList := by
    rw [parseParts_eq_error_iff]
    constructor
    · rintro ⟨first, hfirst, hpart⟩
      rw [Error.invalid.inj hpart, String.toList_ofList]
      exact hfirst
    · intro hfirst
      exact ⟨part.toList, hfirst, by rw [String.ofList_toList]⟩
  rw [← hparts, parse, Text.listItems_eq_commaParts]
  cases parseParts (Text.commaParts text.toList) with
  | error e => simp only [Except.error.injEq]
  | ok list => exact iff_of_false (fun h => nomatch (ofList_eq_error_iff.mp h).2) nofun

/-- A text is refused as `empty` if it has no `Text.commaParts`. -/
theorem parse_eq_empty_iff :
    parse text = .error .empty ↔ Text.commaParts text.toList = [] := by
  rw [parse, Text.listItems_eq_commaParts]
  cases hparts : parseParts (Text.commaParts text.toList) with
  | error e =>
    obtain ⟨part, hfirst, rfl⟩ := parseParts_eq_error_iff.mp hparts
    refine iff_of_false nofun fun hnil => ?_
    rw [hnil] at hparts
    cases hparts
  | ok list =>
    have hlength := (parseParts_eq_ok_iff_forall₂.mp hparts).length_eq
    rw [← List.length_eq_zero_iff, hlength, List.length_eq_zero_iff]
    exact ofList_eq_error_iff.trans (and_iff_left rfl)

theorem exists_parse_eq_ok_iff :
    (∃ sizes, parse text = .ok sizes) ↔
      Text.commaParts text.toList ≠ [] ∧ ∀ part ∈ Text.commaParts text.toList, IsSize part := by
  constructor
  · rintro ⟨sizes, hsizes⟩
    refine ⟨fun hnil => ?_, isSize_of_parseParts
      (parseParts_eq_ok_iff_forall₂.mpr (parse_eq_ok_iff.mp hsizes))⟩
    rw [parse_eq_empty_iff.mpr hnil] at hsizes
    cases hsizes
  · rintro ⟨hcons, hall⟩
    -- Neither of the two ways to be refused is left.
    match hread : parse text with
    | .ok sizes => exact ⟨sizes, rfl⟩
    | .error .empty => exact absurd (parse_eq_empty_iff.mp hread) hcons
    | .error (.invalid part) =>
      obtain ⟨before, after, hsplit, -, hnot⟩ := parse_eq_invalid_iff.mp hread
      refine absurd (hall part.toList ?_) hnot
      rw [hsplit]
      exact List.mem_append_right before List.mem_cons_self

end Parse

/-! ## Written sizes -/

/-- What may stand between two commas: a size or none, with any white space around it. -/
structure Piece where
  before : List Char
  size? : Option UInt64
  after : List Char
  isBlank_before : ∀ c ∈ before, Text.isBlank c = true
  isBlank_after : ∀ c ∈ after, Text.isBlank c = true

/-- A size in decimal. -/
def decimal (size : UInt64) : List Char :=
  Nat.toDigits 10 size.toNat

namespace Piece

/-- The size of a piece in `decimal`, without the white space. -/
def word (piece : Piece) : List Char :=
  piece.size?.elim [] decimal

def text (piece : Piece) : List Char :=
  piece.before ++ piece.word ++ piece.after

/-- The `word` of a piece is nothing but digits. -/
theorem isDigit_word (piece : Piece) : ∀ c ∈ piece.word, c.isDigit = true := by
  intro c hc
  unfold word at hc
  cases hsize : piece.size? with
  | none =>
    rw [hsize] at hc
    cases hc
  | some size =>
    rw [hsize] at hc
    exact Nat.isDigit_of_mem_toDigits (by decide) (by decide) hc

theorem trim_text (piece : Piece) : Text.trim piece.text = piece.word :=
  Text.trim_padded piece.isBlank_before
    (fun c hc => Text.isBlank_of_isDigit (piece.isDigit_word c hc)) piece.isBlank_after

/-- There is no comma inside the `text` of a piece. -/
theorem not_mem_text (piece : Piece) : ',' ∉ piece.text := by
  intro hcomma
  -- A comma is neither a blank nor a digit.
  rcases List.mem_append.mp hcomma with hinside | hafter
  · rcases List.mem_append.mp hinside with hbefore | hword
    · exact absurd (piece.isBlank_before _ hbefore) (by decide)
    · exact absurd (piece.isDigit_word _ hword) (by decide)
  · exact absurd (piece.isBlank_after _ hafter) (by decide)

end Piece

/-- The `text` of each of the pieces with commas between them. -/
def ofPieces (pieces : List Piece) : String :=
  String.ofList ([','].intercalate (pieces.map Piece.text))

/-- The pieces of which the `word` is not blank are those with a `size?`. -/
theorem filter_words (pieces : List Piece) :
    (pieces.map Piece.word).filter (· ≠ []) = (pieces.filterMap Piece.size?).map decimal := by
  induction pieces with
  | nil => rfl
  | cons piece rest ih =>
    cases hsize : piece.size? with
    | none =>
      have hword : piece.word = [] := by rw [Piece.word, hsize, Option.elim_none]
      rw [List.map_cons, List.filter_cons_of_neg (by simpa using hword), ih,
        List.filterMap_cons_none hsize]
    | some size =>
      -- Even the smallest size has a digit.
      have hword : piece.word = decimal size := by rw [Piece.word, hsize, Option.elim_some]
      have hcons : decimal size ≠ [] := Nat.toDigits_ne_nil
      rw [List.map_cons, hword, List.filter_cons_of_pos (by simpa using hcons), ih,
        List.filterMap_cons_some hsize, List.map_cons]

/-- The `Text.commaParts` of what `ofPieces` makes are the sizes of the pieces. -/
theorem commaParts_ofPieces {pieces : List Piece} (h : pieces ≠ []) :
    Text.commaParts (ofPieces pieces).toList = (pieces.filterMap Piece.size?).map decimal := by
  have hcommas : ∀ piece ∈ pieces.map Piece.text, ',' ∉ piece := by
    intro text htext
    obtain ⟨piece, -, rfl⟩ := List.mem_map.mp htext
    exact piece.not_mem_text
  have htrim : (pieces.map Piece.text).map Text.trim = pieces.map Piece.word := by
    rw [List.map_map]
    exact List.map_congr_left fun piece _ => piece.trim_text
  calc Text.commaParts (ofPieces pieces).toList
      = (((ofPieces pieces).toList.splitOn ',').map Text.trim).filter (· ≠ []) := rfl
    _ = ((pieces.map Piece.text).map Text.trim).filter (· ≠ []) := by
        rw [ofPieces, String.toList_ofList,
          List.splitOn_intercalate ',' hcommas (List.map_eq_nil_iff.not.mpr h)]
    _ = (pieces.filterMap Piece.size?).map decimal := by
        rw [htrim, filter_words]

/-- By `parse`, `sizes` are read back from the pieces in which they stand. -/
theorem parse_ofPieces {sizes : PayloadSizes} {pieces : List Piece}
    (h : pieces.filterMap Piece.size? = sizes.toList) : parse (ofPieces pieces) = .ok sizes := by
  have hcons : pieces ≠ [] := by
    rintro rfl
    exact sizes.ne_nil h.symm
  rw [parse_eq_ok_iff, commaParts_ofPieces hcons, h, List.forall₂_map_left_iff,
    List.forall₂_same]
  exact fun size _ => Text.unsigned_toDigits size.toNat

/-- By `parse`, a text is read if it has `Text.commaParts` and all of them are sizes, and gives
these sizes in order. It is refused as `invalid` for the `FirstNonSize` among them, and as `empty`
if it has none. So `sizes` are read back from what `ofPieces` makes of them, whatever white space
stands around them and whatever blank parts between them. -/
theorem reads_comma_parts :
    (∀ text : String,
      let parts := Text.commaParts text.toList
      ((∃ sizes, parse text = .ok sizes) ↔ parts ≠ [] ∧ ∀ part ∈ parts, IsSize part) ∧
        (∀ sizes, parse text = .ok sizes ↔
          List.Forall₂ (fun part size => Text.Unsigned part size.toNat) parts sizes.toList) ∧
        (∀ part, parse text = .error (.invalid part) ↔ FirstNonSize parts part.toList) ∧
        (parse text = .error .empty ↔ parts = [])) ∧
      ∀ (sizes : PayloadSizes) (pieces : List Piece),
        pieces.filterMap Piece.size? = sizes.toList → parse (ofPieces pieces) = .ok sizes :=
  ⟨fun _ => ⟨exists_parse_eq_ok_iff, fun _ => parse_eq_ok_iff, fun _ => parse_eq_invalid_iff,
    parse_eq_empty_iff⟩, fun _ _ => parse_ofPieces⟩

/-- The largest size and the smallest, after a blank piece and with white space in between. -/
def padded : List Piece :=
  [⟨['\t'], none, [], List.forall_mem_singleton.mpr rfl, nofun⟩,
    ⟨[], some 0xFFFFFFFFFFFFFFFF, [' '], nofun, List.forall_mem_singleton.mpr rfl⟩,
    ⟨['\n'], some 0, [], List.forall_mem_singleton.mpr rfl, nofun⟩]

/-- The sizes of `padded` are read back; one more than the largest is not a size. -/
theorem reads_comma_parts_padded :
    padded.filterMap Piece.size? = [0xFFFFFFFFFFFFFFFF, 0] ∧
      ofPieces padded = "\t,18446744073709551615 ,\n0" ∧
      parse (ofPieces padded) = .ok ⟨[0xFFFFFFFFFFFFFFFF, 0], List.cons_ne_nil _ _⟩ ∧
      FirstNonSize (Text.commaParts "+007, ,18446744073709551616,-1".toList)
        "18446744073709551616".toList := by
  obtain ⟨hreads, hback⟩ := reads_comma_parts
  refine ⟨by decide, by decide +kernel, hback _ _ (by decide), ?_⟩
  exact ((hreads _).2.2.1 _).mp (by decide +kernel)

end Volley.PayloadSizes
