import Mnemo.Lib.UrlText

/-!
# Reading the parts of addresses

How the path and the parameters of an address that was joined from parts are read, also when a part
holds characters that end it, and which parts are read as they are meant.
-/

open PercentEncoding

namespace Url

/-! ## Resolving the segments -/

/-- A segment of one or two dots. -/
def isDots (segment : List Char) : Bool := isDoubleDot segment || isDot segment

theorem decode_of_isDots {segment : List Char} (dots : isDots segment = true) :
    decode segment = bytes ['.'] ∨ decode segment = bytes ['.', '.'] := by
  simp only [isDots, isDoubleDot, isDot, List.any_cons, List.any_nil, Bool.or_false,
    Bool.or_eq_true, beq_iff_eq] at dots
  rcases dots with (rfl | rfl | rfl | rfl | rfl | rfl | rfl | rfl | rfl) | (rfl | rfl | rfl)
  all_goals first
    | exact .inl (by decide)
    | exact .inr (by decide)

theorem resolve_of_plain {segments : List (List Char)}
    (plain : ∀ segment ∈ segments, isDots segment = false) (entered : List (List Char)) :
    resolve entered segments = entered ++ segments := by
  fun_induction resolve entered segments with
  | case1 => exact (List.append_nil _).symm
  | case2 entered last dots =>
    have none := plain last List.mem_cons_self
    simp [isDots, dots] at none
  | case3 entered last _ dots =>
    have none := plain last List.mem_cons_self
    simp [isDots, dots] at none
  | case4 => rfl
  | case5 entered segment rest _ dots =>
    have none := plain segment List.mem_cons_self
    simp [isDots, dots] at none
  | case6 entered segment rest _ _ dots =>
    have none := plain segment List.mem_cons_self
    simp [isDots, dots] at none
  | case7 entered segment rest _ _ _ ih =>
    rw [ih fun later member => plain later (List.mem_cons_of_mem _ member)]
    exact List.append_assoc _ _ _

theorem length_resolve_le (entered segments : List (List Char)) :
    (resolve entered segments).length ≤ entered.length + segments.length := by
  fun_induction resolve entered segments with
  | case1 => exact Nat.le_refl _
  | case2 entered last dots => simp
  | case3 => simp
  | case4 => simp
  | case5 entered segment rest _ dots ih =>
    rw [List.length_dropLast] at ih
    rw [List.length_cons]
    omega
  | case6 entered segment rest _ _ dots ih =>
    rw [List.length_cons]
    omega
  | case7 entered segment rest _ _ _ ih =>
    rw [List.length_append, List.length_singleton] at ih
    rw [List.length_cons]
    omega

/-- If resolving loses no segment, there are no dots among them, or the last one becomes empty. -/
theorem plain_of_length_resolve {entered segments : List (List Char)}
    (long : entered.length + segments.length ≤ (resolve entered segments).length) :
    (∀ segment ∈ segments, isDots segment = false) ∨
      (resolve entered segments).getLast? = some [] := by
  fun_induction resolve entered segments with
  | case1 => exact .inl fun segment member => nomatch member
  | case2 entered last dots => exact .inr (by simp)
  | case3 => exact .inr (by simp)
  | case4 entered last up here =>
    exact .inl fun segment member => by
      obtain rfl := List.mem_singleton.mp member
      simp [isDots, up, here]
  | case5 entered segment rest more dots ih =>
    have less := length_resolve_le entered.dropLast rest
    rw [List.length_dropLast] at less
    rw [List.length_cons] at long
    omega
  | case6 entered segment rest more _ dots ih =>
    have less := length_resolve_le entered rest
    rw [List.length_cons] at long
    omega
  | case7 entered segment rest more up here ih =>
    rw [List.length_append, List.length_singleton] at ih
    rw [List.length_cons] at long
    rcases ih (by omega) with plain | last
    · refine .inl fun other member => ?_
      rcases List.mem_cons.mp member with rfl | later
      · simp [isDots, up, here]
      · exact plain other later
    · exact .inr last

/-! ## Cutting off the path -/

/-- The segments up to the first character that ends the path. -/
def cutSegments : List (List Char) → List (List Char)
  | [] => []
  | segment :: rest =>
      if segment.all (!endsPath ·) then segment :: cutSegments rest
      else [segment.takeWhile (!endsPath ·)]

theorem length_cutSegments_le (segments : List (List Char)) :
    (cutSegments segments).length ≤ segments.length := by
  fun_induction cutSegments segments with
  | case1 => exact Nat.le_refl _
  | case2 segment rest plain ih => exact Nat.succ_le_succ ih
  | case3 segment rest ends => exact Nat.succ_le_succ (Nat.zero_le _)

theorem keeps_of_isQuiet (character : Char) (quiet : isQuiet character = true) :
    (!endsPath character) = true := by
  rw [((isQuiet_iff character).mp quiet).2.2.1]
  rfl

theorem remains_cutSegments {segments : List (List Char)}
    (long : segments.length ≤ (cutSegments segments).length) :
    List.Forall₂ Remains (cutSegments segments) segments := by
  fun_induction cutSegments segments with
  | case1 => exact .nil
  | case2 segment rest plain ih =>
    exact .cons (.refl segment) (ih (Nat.le_of_succ_le_succ long))
  | case3 segment rest ends =>
    have last : rest = [] := List.length_eq_zero_iff.mp (by simpa using long)
    subst last
    exact .cons (.takeWhile keeps_of_isQuiet segment) .nil

theorem cutSegments_eq_self_iff {segments : List (List Char)} :
    cutSegments segments = segments ↔
      ∀ segment ∈ segments, ∀ character ∈ segment, endsPath character = false := by
  induction segments with
  | nil => exact ⟨fun _ segment member => (nomatch member), fun _ => rfl⟩
  | cons segment rest ih =>
    rw [cutSegments, List.forall_mem_cons, ← ih]
    split
    next plain =>
      rw [List.cons.injEq, eq_self_iff_true, true_and]
      exact ⟨fun same => ⟨by simpa using plain, same⟩, fun same => same.2⟩
    next ends =>
      constructor
      · intro same
        have whole := List.takeWhile_eq_self_iff.mp (List.cons.inj same).1
        exact absurd (List.all_eq_true.mpr whole) ends
      · intro plain
        exact absurd (List.all_eq_true.mpr fun character member => by
          simp [plain.1 character member]) ends

theorem takeWhile_ends_joinParameters (parameters : List (List Char × List Char)) :
    (joinParameters '?' parameters).takeWhile (!endsPath ·) = [] := by
  cases parameters with
  | nil => rfl
  | cons parameter rest => rfl

/-- Splitting at slashes what stands before the end of the path gives the segments. -/
theorem splitOnP_path {segments : List (List Char)} {after : List Char} (nonempty : segments ≠ [])
    (separate : ∀ segment ∈ segments, ∀ character ∈ segment, isSlash character = false)
    (ends : after.takeWhile (!endsPath ·) = []) :
    (((joinPath segments ++ after).takeWhile (!endsPath ·)).drop 1).splitOnP isSlash =
      cutSegments segments := by
  induction segments with
  | nil => exact absurd rfl nonempty
  | cons segment rest ih =>
    obtain ⟨first, others⟩ := List.forall_mem_cons.mp separate
    rw [joinPath_cons, List.cons_append, List.takeWhile_cons_of_pos (by decide),
      List.drop_one, List.tail_cons, List.append_assoc, List.takeWhile_append, cutSegments]
    have whole : (segment.takeWhile (!endsPath ·)).length = segment.length ↔
        segment.all (!endsPath ·) = true := by
      rw [List.all_eq_true, ← List.takeWhile_eq_self_iff]
      exact ⟨fun same => (List.takeWhile_prefix _).eq_of_length same, congrArg List.length⟩
    by_cases plain : segment.all (!endsPath ·) = true
    · rw [if_pos (whole.mpr plain), if_pos plain]
      cases rest with
      | nil =>
        rw [joinPath_nil, List.nil_append, ends, List.append_nil]
        exact List.splitOnP_eq_singleton first
      | cons next rest =>
        have tail := ih (List.cons_ne_nil _ _) others
        rw [joinPath_cons, List.cons_append, List.takeWhile_cons_of_pos (by decide),
          List.drop_one, List.tail_cons] at tail
        rw [joinPath_cons, List.cons_append, List.takeWhile_cons_of_pos (by decide),
          List.splitOnP_append_cons_of_forall_mem first '/' (by decide), tail]
    · rw [if_neg (whole.not.mpr plain), if_neg plain]
      exact List.splitOnP_eq_singleton fun character member =>
        first character ((List.takeWhile_sublist _).subset member)

theorem path_readRest_eq (scheme authority rest : List Char) :
    (readRest scheme authority rest).path = resolve []
      ((((rest.takeWhile (!endsPath ·)).drop 1).splitOnP isSlash).map (encode pathSpecial)) := by
  simp only [readRest, splitAtSign, readPath, List.takeWhile_takeWhile]
  congr 5
  funext character
  rw [Bool.eq_iff_iff]
  simp [endsPath]

theorem path_readRest {segments : List (List Char)} (nonempty : segments ≠ [])
    (separate : ∀ segment ∈ segments, ∀ character ∈ segment, isSlash character = false)
    (scheme authority : List Char) (parameters : List (List Char × List Char)) :
    (readRest scheme authority (joinPath segments ++ joinParameters '?' parameters)).path =
      resolve [] ((cutSegments segments).map (encode pathSpecial)) := by
  rw [path_readRest_eq, splitOnP_path nonempty separate (takeWhile_ends_joinParameters parameters)]

/-! ## Reading parameters -/

/-- Whether a parameter ends at a character. -/
def endsParameter (character : Char) : Bool := character == '&' || character == '#'

/-- The parameters that are read from what follows a mark. -/
def readAfter (text : List Char) : List (List UInt8 × List UInt8) :=
  readParameters (encode querySpecial (text.takeWhile (· != '#')))

theorem notMem_encode {character : Char} {text : List Char} (none : character ∉ text)
    (percent : character ≠ '%') (digit : hexValue character = Option.none) :
    character ∉ encode querySpecial text := by
  intro found
  rcases mem_encode found with ⟨member, _⟩ | same | some
  · exact none member
  · exact percent same
  · rw [digit] at some
    exact nomatch some

theorem encode_ne_nil {text : List Char} (nonempty : text ≠ []) :
    encode querySpecial text ≠ [] := by
  cases text with
  | nil => exact absurd rfl nonempty
  | cons character text =>
    rw [encode_cons, encodeChar]
    split
    · obtain ⟨rest, starts⟩ := exists_percent_cons character
      rw [starts]
      exact List.cons_ne_nil _ _
    · exact List.cons_ne_nil _ _

theorem ne_hash_of_not_endsParameter {text : List Char}
    (plain : ∀ character ∈ text, endsParameter character = false) :
    ∀ character ∈ text, (character != '#') = true := by
  intro character member
  have stays := plain character member
  simp only [endsParameter, Bool.or_eq_false_iff] at stays
  rw [bne, stays.2]
  rfl

theorem notMem_of_not_endsParameter {text : List Char}
    (plain : ∀ character ∈ text, endsParameter character = false) : '&' ∉ text :=
  fun member => Bool.false_ne_true (plain '&' member).symm

theorem readAfter_end {text after : List Char} (nonempty : text ≠ [])
    (plain : ∀ character ∈ text, endsParameter character = false)
    (ends : after.takeWhile (· != '#') = []) :
    readAfter (text ++ after) = [readParameter (encode querySpecial text)] := by
  have alone : (encode querySpecial text).splitOnP (· == '&') = [encode querySpecial text] :=
    List.splitOnP_eq_singleton fun character member => by
      refine beq_eq_false_iff_ne.mpr fun same => ?_
      exact notMem_encode (notMem_of_not_endsParameter plain) (by decide) (by decide)
        (same ▸ member)
  rw [readAfter, List.takeWhile_append_of_pos (ne_hash_of_not_endsParameter plain), ends,
    List.append_nil, readParameters, alone]
  simp [encode_ne_nil nonempty]

theorem readAfter_next {text : List Char} (nonempty : text ≠ [])
    (plain : ∀ character ∈ text, endsParameter character = false) (rest : List Char) :
    readAfter (text ++ '&' :: rest) =
      readParameter (encode querySpecial text) :: readAfter rest := by
  have separate : ∀ character ∈ encode querySpecial text, (character == '&') = false :=
    fun character member => by
      refine beq_eq_false_iff_ne.mpr fun same => ?_
      exact notMem_encode (notMem_of_not_endsParameter plain) (by decide) (by decide)
        (same ▸ member)
  have mark : encodeChar querySpecial '&' = ['&'] := encodeChar_of_not (by decide)
  rw [readAfter, List.takeWhile_append_of_pos (ne_hash_of_not_endsParameter plain),
    List.takeWhile_cons_of_pos (by decide), encode_append, encode_cons, mark,
    List.singleton_append, readParameters,
    List.splitOnP_append_cons_of_forall_mem separate '&' (by decide),
    List.filter_cons_of_pos (by simp [encode_ne_nil nonempty]), List.map_cons]
  rfl

/-- A name that is written as it is. -/
def isName (name : List Char) : Bool :=
  name.all fun character => isQuiet character && character != '=' && character != '%'

theorem not_hasEscape_of_notMem {text : List Char} (none : '%' ∉ text) :
    hasEscape text = false := by
  fun_induction hasEscape text with
  | case1 => rfl
  | case2 high low rest ih => exact absurd List.mem_cons_self none
  | case3 character rest _ ih => exact ih fun later => none (List.mem_cons_of_mem _ later)

theorem readParameter_encode {name : List Char} (named : isName name = true)
    (value : List Char) :
    readParameter (encode querySpecial (name ++ '=' :: value)) =
      (bytes name, decodeForm value) := by
  have quiet : ∀ character ∈ name, isQuiet character = true ∧ character ≠ '=' ∧
      character ≠ '%' := by
    simpa [isName, and_assoc] using named
  have equals : encodeChar querySpecial '=' = ['='] := encodeChar_of_not (by decide)
  have before : ∀ character ∈ encode querySpecial name, (character != '=') = true :=
    fun character member => by
      refine bne_iff_ne.mpr fun same => ?_
      exact notMem_encode (fun inside => (quiet '=' inside).2.1 rfl) (by decide) (by decide)
        (same ▸ member)
  have plus : '+' ∉ name := fun member => ((isQuiet_iff '+').mp (quiet '+' member).1).2.2.2.2 rfl
  have percent : '%' ∉ name := fun member => (quiet '%' member).2.2 rfl
  rw [readParameter, encode_append, encode_cons, equals, List.singleton_append,
    List.takeWhile_append_of_pos before, List.dropWhile_append_of_pos before,
    List.takeWhile_cons_of_neg (by decide), List.dropWhile_cons_of_neg (by decide),
    List.append_nil, List.drop_one, List.tail_cons,
    decodeForm_encode harmless_querySpecial (by decide),
    decodeForm_encode harmless_querySpecial (by decide),
    decodeForm_eq_bytes (not_hasEscape_of_notMem percent) plus]

theorem endsParameter_of_isQuiet {character : Char} (quiet : isQuiet character = true) :
    endsParameter character = false := by
  obtain ⟨_, _, path, ampersand, _⟩ := (isQuiet_iff character).mp quiet
  rw [endsPath, Bool.or_eq_false_iff] at path
  rw [endsParameter, path.2, Bool.or_false, beq_eq_false_iff_ne]
  exact ampersand

/-- The first parameter ends at an ampersand or number sign in its value, and is followed by the
others if there is none. -/
theorem exists_readAfter_cons {name : List Char} (named : isName name = true) (mark : Char)
    (value : List Char) (rest : List (List Char × List Char)) :
    ∃ others, readAfter ((joinParameters mark ((name, value) :: rest)).drop 1) =
        (bytes name, decodeForm (value.takeWhile (!endsParameter ·))) :: others ∧
      ((∀ character ∈ value, endsParameter character = false) →
        others = readAfter ((joinParameters '&' rest).drop 1)) := by
  set front := value.takeWhile (!endsParameter ·) with frontEq
  set back := value.dropWhile (!endsParameter ·) with backEq
  have whole : front ++ back = value := List.takeWhile_append_dropWhile
  have nonempty : name ++ '=' :: front ≠ [] := by simp
  have plain : ∀ character ∈ name ++ '=' :: front, endsParameter character = false := by
    intro character member
    rcases List.mem_append.mp member with inName | inValue
    · have quiet := List.all_eq_true.mp named character inName
      simp only [Bool.and_eq_true] at quiet
      exact endsParameter_of_isQuiet quiet.1.1
    · rcases List.mem_cons.mp inValue with rfl | inFront
      · decide
      · simpa using List.mem_takeWhile_imp inFront
  have text : (joinParameters mark ((name, value) :: rest)).drop 1 =
      (name ++ '=' :: front) ++ (back ++ joinParameters '&' rest) := by
    rw [joinParameters, ← whole]
    simp
  rw [text]
  cases backCase : back with
  | nil =>
    rw [List.nil_append]
    cases rest with
    | nil =>
      refine ⟨[], ?_, fun _ => rfl⟩
      rw [readAfter_end nonempty plain rfl, readParameter_encode named]
    | cons next rest =>
      refine ⟨readAfter ((joinParameters '&' (next :: rest)).drop 1), ?_, fun _ => rfl⟩
      rw [joinParameters, readAfter_next nonempty plain, readParameter_encode named,
        List.drop_one, List.tail_cons]
  | cons stop back' =>
    have ends : endsParameter stop = true := by
      have first := List.head?_dropWhile_not (!endsParameter ·) value
      rw [← backEq, backCase] at first
      simpa using first
    have inside : stop ∈ value := by
      rw [← whole, backCase]
      exact List.mem_append_right _ List.mem_cons_self
    have impossible : ∀ others, (∀ character ∈ value, endsParameter character = false) →
        others = readAfter ((joinParameters '&' rest).drop 1) := fun _ none =>
      absurd ((none stop inside).symm.trans ends) Bool.false_ne_true
    simp only [endsParameter, Bool.or_eq_true, beq_iff_eq] at ends
    rcases ends with rfl | rfl
    · refine ⟨readAfter (back' ++ joinParameters '&' rest), ?_, impossible _⟩
      rw [List.cons_append, readAfter_next nonempty plain, readParameter_encode named]
    · refine ⟨[], ?_, impossible _⟩
      rw [List.cons_append, readAfter_end nonempty plain rfl, readParameter_encode named]

/-! ## Parts of an address -/

/-- The characters that are encoded in a part of an address. -/
def isReserved (character : Char) : Bool :=
  !(character.isAlphanum || ['-', '_', '.', '~'].contains character)

/-- A part of an address. -/
inductive Piece
  /-- A text that is written as it is. -/
  | raw (text : List Char)
  /-- A text that is encoded. -/
  | encoded (text : List Char)
deriving DecidableEq

namespace Piece

/-- The text that a part is meant to stand for. -/
def meaning : Piece → List Char
  | .raw text => text
  | .encoded text => text

/-- What is written for a part. -/
def written : Piece → List Char
  | .raw text => text
  | .encoded text => encode isReserved text

/-- No escape stands in a part that is written as it is. -/
def Unescaped : Piece → Prop
  | .raw text => hasEscape text = false
  | .encoded _ => True

/-- A part is read as it is meant where a segment stands. -/
def PlainSegment : Piece → Prop
  | .raw text =>
      (∀ character ∈ text, isSlash character = false ∧ endsPath character = false ∧
        isBreak character = false) ∧
      hasEscape text = false ∧ text ≠ ['.'] ∧ text ≠ ['.', '.']
  | .encoded text => text ≠ ['.'] ∧ text ≠ ['.', '.']

/-- A part is read as it is meant where the value of a parameter stands. -/
def PlainValue : Piece → Prop
  | .raw text =>
      (∀ character ∈ text, endsParameter character = false ∧ character ≠ '+' ∧
        isBreak character = false) ∧
      hasEscape text = false
  | .encoded _ => True

end Piece

theorem isReserved_of_isBlank {character : Char} (blank : isBlank character = true) :
    isReserved character = true := by
  have small : character.toNat ≤ 0x20 := of_decide_eq_true blank
  have same : character = Char.ofNat character.toNat := (Char.ofNat_toNat character).symm
  generalize character.toNat = code at same small
  subst same
  interval_cases code <;> decide

/-- Encoded text means nothing else anywhere. -/
theorem isQuiet_of_mem_encode {text : List Char} {character : Char}
    (member : character ∈ encode isReserved text) : isQuiet character = true := by
  by_contra loud
  have unusual : isReserved character = true ∧ hexValue character = none ∧ character ≠ '%' := by
    rw [isQuiet, Bool.not_eq_true', ← Bool.not_eq_true, not_not, Bool.or_eq_true, Bool.or_eq_true,
      Bool.or_eq_true, Bool.or_eq_true] at loud
    rcases loud with (((blank | slash) | ends) | same) | same
    · have small : character.toNat ≤ 0x20 := of_decide_eq_true blank
      refine ⟨isReserved_of_isBlank blank, hexValue_eq_none (.inl (by omega)), ?_⟩
      rintro rfl
      exact absurd small (by decide)
    · rw [isSlash, Bool.or_eq_true, beq_iff_eq, beq_iff_eq] at slash
      rcases slash with rfl | rfl <;> decide
    · rw [endsPath, Bool.or_eq_true, beq_iff_eq, beq_iff_eq] at ends
      rcases ends with rfl | rfl <;> decide
    · rw [beq_iff_eq] at same
      subst same
      decide
    · rw [beq_iff_eq] at same
      subst same
      decide
  rcases mem_encode member with ⟨_, usual⟩ | percent | digit
  · rw [unusual.1] at usual
    cases usual
  · exact unusual.2.2 percent
  · rw [unusual.2.1] at digit
    cases digit

namespace Piece

theorem decode_written {piece : Piece} (plain : piece.Unescaped) :
    decode piece.written = bytes piece.meaning := by
  cases piece with
  | raw text => exact decode_of_not_hasEscape plain
  | encoded text => exact decode_encode_of_percent (by decide) text

theorem written_of_dots {piece : Piece} (dots : piece.meaning = ['.'] ∨ piece.meaning = ['.', '.']) :
    piece.written = piece.meaning := by
  cases piece with
  | raw text => rfl
  | encoded text => rcases dots with rfl | rfl <;> decide

theorem eq_written {piece : Piece} {part : List Char} (remains : Remains part piece.written)
    (reads : decode part = bytes piece.meaning) : part = piece.written ∧ piece.Unescaped := by
  cases piece with
  | raw text => exact eq_of_decode_eq_bytes remains.1 reads
  | encoded text => exact ⟨remains.2 fun _ => isQuiet_of_mem_encode, trivial⟩

theorem eq_written_of_form {piece : Piece} {part : List Char}
    (remains : Remains part piece.written) (reads : decodeForm part = bytes piece.meaning) :
    part = piece.written ∧ piece.Unescaped ∧ '+' ∉ piece.written := by
  cases piece with
  | raw text => exact eq_of_decodeForm_eq_bytes remains.1 reads
  | encoded text =>
    refine ⟨remains.2 fun _ => isQuiet_of_mem_encode, trivial, fun plus => ?_⟩
    exact ((isQuiet_iff '+').mp (isQuiet_of_mem_encode plus)).2.2.2.2 rfl

theorem decodeForm_written {piece : Piece} (plain : piece.Unescaped)
    (plus : '+' ∉ piece.written) : decodeForm piece.written = bytes piece.meaning := by
  rw [decodeForm, plusToSpace_of_notMem plus, decode_written plain]

theorem plainSegment_iff (piece : Piece) :
    piece.PlainSegment ↔ (∀ character ∈ piece.written, isSlash character = false ∧
        endsPath character = false ∧ isBreak character = false) ∧
      piece.Unescaped ∧ piece.meaning ≠ ['.'] ∧ piece.meaning ≠ ['.', '.'] := by
  cases piece with
  | raw text => exact Iff.rfl
  | encoded text =>
    have quiet : ∀ character ∈ encode isReserved text, isSlash character = false ∧
        endsPath character = false ∧ isBreak character = false := fun character member => by
      obtain ⟨blank, slash, ends, _⟩ := (isQuiet_iff character).mp (isQuiet_of_mem_encode member)
      exact ⟨slash, ends, isBreak_of_not_isBlank blank⟩
    exact ⟨fun plain => ⟨quiet, trivial, plain⟩, fun plain => plain.2.2⟩

theorem plainValue_iff (piece : Piece) :
    piece.PlainValue ↔ (∀ character ∈ piece.written, endsParameter character = false ∧
        character ≠ '+' ∧ isBreak character = false) ∧ piece.Unescaped := by
  cases piece with
  | raw text => exact Iff.rfl
  | encoded text =>
    have quiet : ∀ character ∈ encode isReserved text, endsParameter character = false ∧
        character ≠ '+' ∧ isBreak character = false := fun character member => by
      have silent := isQuiet_of_mem_encode member
      obtain ⟨blank, _, _, _, plus⟩ := (isQuiet_iff character).mp silent
      exact ⟨endsParameter_of_isQuiet silent, plus, isBreak_of_not_isBlank blank⟩
    exact ⟨fun _ => ⟨quiet, trivial⟩, fun _ => trivial⟩

end Piece

end Url
