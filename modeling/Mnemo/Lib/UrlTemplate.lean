import Mnemo.Lib.UrlParts

/-!
# Addresses made from templates

A template is a path of segments and a list of parameters, some of them written as they are and
some encoded.  The address made from it is read as it was meant exactly when no part that is
written as it is holds a character, an escape or dots that mean something else there.
-/

open PercentEncoding

namespace Url

/-- An address without its authority, made from parts. -/
structure Template where
  segments : List Piece
  /-- The parameters, each a name and a value. -/
  parameters : List (List Char × Piece)

namespace Template

/-- What is written for the segments. -/
def writtenSegments (template : Template) : List (List Char) :=
  template.segments.map Piece.written

/-- What is written for the parameters. -/
def writtenParameters (template : Template) : List (List Char × List Char) :=
  template.parameters.map fun parameter => (parameter.1, parameter.2.written)

/-- What is written for a template. -/
def text (template : Template) : List Char :=
  joinPath template.writtenSegments ++ joinParameters '?' template.writtenParameters

/-- An address has the segments and parameters of a template. -/
def ReadAs (template : Template) (url : Url) : Prop :=
  url.segments = template.segments.map (fun piece => bytes piece.meaning) ∧
    url.parameters =
      template.parameters.map fun parameter => (bytes parameter.1, bytes parameter.2.meaning)

/-- Every part of a template is read as it is meant where it stands. -/
structure Plain (template : Template) : Prop where
  segments : ∀ piece ∈ template.segments, piece.PlainSegment
  parameters : ∀ parameter ∈ template.parameters, parameter.2.PlainValue
  /-- The address does not end in a control character or space. -/
  visible : ∀ last ∈ template.text.getLast?, isBlank last = false

/-- The names are plain, and no segment is split. -/
structure WellFormed (template : Template) : Prop where
  nonempty : template.segments ≠ []
  separate : ∀ piece ∈ template.segments, ∀ character ∈ piece.written, isSlash character = false
  /-- The last segment is not empty. -/
  last : ∀ piece ∈ template.segments.getLast?, piece.meaning ≠ []
  named : ∀ parameter ∈ template.parameters, isName parameter.1 = true

end Template

/-! ## Segments -/

theorem remains_trans {first second third : List (List Char)}
    (front : List.Forall₂ Remains first second) (back : List.Forall₂ Remains second third) :
    List.Forall₂ Remains first third := by
  induction front generalizing third with
  | nil => exact back
  | cons part rest ih =>
    cases back with
    | cons whole others => exact .cons (part.trans whole) (ih others)

theorem sublists_of_remains {parts texts : List (List Char)}
    (remain : List.Forall₂ Remains parts texts) : List.Forall₂ List.Sublist parts texts :=
  remain.imp fun _ _ remains => remains.1

theorem eq_written_of_decode {pieces : List Piece} {parts : List (List Char)}
    (remain : List.Forall₂ Remains parts (pieces.map Piece.written))
    (reads : parts.map decode = pieces.map fun piece => bytes piece.meaning) :
    parts = pieces.map Piece.written ∧ ∀ piece ∈ pieces, piece.Unescaped := by
  induction pieces generalizing parts with
  | nil =>
    cases remain
    exact ⟨rfl, fun piece member => nomatch member⟩
  | cons piece pieces ih =>
    cases remain with
    | cons remains rest =>
      obtain ⟨first, others⟩ := List.cons.inj reads
      obtain ⟨rfl, unescaped⟩ := Piece.eq_written remains first
      obtain ⟨rfl, later⟩ := ih rest others
      exact ⟨rfl, List.forall_mem_cons.mpr ⟨unescaped, later⟩⟩

theorem decode_encode_segments (segments : List (List Char)) :
    (segments.map (encode pathSpecial)).map decode = segments.map decode := by
  rw [List.map_map]
  exact List.map_congr_left fun segment _ => decode_encode harmless_pathSpecial segment

/-- The parts that are cut off, encoded and resolved are read as the segments are meant only if
nothing was lost, and no segment consists of dots. -/
theorem plain_of_resolve {pieces : List Piece} {left : List (List Char)}
    (last : ∀ piece ∈ pieces.getLast?, piece.meaning ≠ [])
    (remain : List.Forall₂ Remains left (pieces.map Piece.written))
    (reads : (resolve [] ((cutSegments left).map (encode pathSpecial))).map decode =
      pieces.map fun piece => bytes piece.meaning) :
    left = pieces.map Piece.written ∧
      (∀ segment ∈ left, ∀ character ∈ segment, endsPath character = false) ∧
      ∀ piece ∈ pieces, piece.Unescaped ∧ piece.meaning ≠ ['.'] ∧ piece.meaning ≠ ['.', '.'] := by
  have count : (resolve [] ((cutSegments left).map (encode pathSpecial))).length =
      pieces.length := by
    simpa using congrArg List.length reads
  have total : left.length = pieces.length := by simpa using remain.length_eq
  have fewer := length_cutSegments_le left
  have most := length_resolve_le [] ((cutSegments left).map (encode pathSpecial))
  rw [List.length_map, List.length_nil, Nat.zero_add, count] at most
  have long : ([] : List (List Char)).length +
      ((cutSegments left).map (encode pathSpecial)).length ≤
        (resolve [] ((cutSegments left).map (encode pathSpecial))).length := by
    rw [List.length_map, List.length_nil, count]
    omega
  rcases plain_of_length_resolve long with plain | empty
  · rw [resolve_of_plain plain, List.nil_append, decode_encode_segments] at reads
    have cut := remains_cutSegments (show left.length ≤ (cutSegments left).length by omega)
    obtain ⟨whole, unescaped⟩ := eq_written_of_decode (remains_trans cut remain) reads
    have same : cutSegments left = left := by
      refine eq_of_forall₂_sublist (sublists_of_remains cut) ?_
      rw [whole]
      exact sublists_of_remains remain
    refine ⟨same ▸ whole, cutSegments_eq_self_iff.mp same, fun piece member => ?_⟩
    have noDots : isDots (encode pathSpecial piece.written) = false := by
      refine plain _ (List.mem_map_of_mem ?_)
      rw [whole]
      exact List.mem_map_of_mem member
    refine ⟨unescaped piece member, fun dot => ?_, fun dots => ?_⟩
    · rw [Piece.written_of_dots (.inl dot), dot] at noDots
      exact absurd noDots (by decide)
    · rw [Piece.written_of_dots (.inr dots), dots] at noDots
      exact absurd noDots (by decide)
  · have lasts := congrArg List.getLast? reads
    rw [List.getLast?_map, List.getLast?_map, empty] at lasts
    obtain ⟨piece, found, meant⟩ := Option.map_eq_some_iff.mp lasts.symm
    exact absurd (bytes_eq_nil meant) (last piece found)

/-- Plain segments are read as they are meant. -/
theorem resolve_of_plainSegments {pieces : List Piece}
    (plain : ∀ piece ∈ pieces, piece.PlainSegment) :
    (resolve [] ((cutSegments (pieces.map Piece.written)).map (encode pathSpecial))).map decode =
      pieces.map fun piece => bytes piece.meaning := by
  have whole : cutSegments (pieces.map Piece.written) = pieces.map Piece.written := by
    refine cutSegments_eq_self_iff.mpr fun segment member character inside => ?_
    obtain ⟨piece, known, rfl⟩ := List.mem_map.mp member
    exact (((Piece.plainSegment_iff piece).mp (plain piece known)).1 character inside).2.1
  have noDots : ∀ segment ∈ (pieces.map Piece.written).map (encode pathSpecial),
      isDots segment = false := by
    intro segment member
    obtain ⟨written, writes, rfl⟩ := List.mem_map.mp member
    obtain ⟨piece, known, rfl⟩ := List.mem_map.mp writes
    obtain ⟨_, unescaped, dot, double⟩ := (Piece.plainSegment_iff piece).mp (plain piece known)
    rw [Bool.eq_false_iff]
    intro dots
    have means := decode_of_isDots dots
    rw [decode_encode harmless_pathSpecial, Piece.decode_written unescaped, bytes_inj, bytes_inj]
      at means
    exact means.elim dot double
  rw [whole, resolve_of_plain noDots, List.nil_append, decode_encode_segments, List.map_map]
  refine List.map_congr_left fun piece member => ?_
  exact Piece.decode_written ((Piece.plainSegment_iff piece).mp (plain piece member)).2.1

/-! ## Parameters -/

theorem takeWhile_of_not_endsParameter {value : List Char}
    (plain : ∀ character ∈ value, endsParameter character = false) :
    value.takeWhile (!endsParameter ·) = value :=
  List.takeWhile_eq_self_iff.mpr fun character member => by rw [plain character member]; rfl

theorem eq_of_remains_name {part name : List Char} (named : isName name = true)
    (remains : Remains part name) : part = name := by
  refine remains.2 fun character member => ?_
  have quiet := List.all_eq_true.mp named character member
  simp only [Bool.and_eq_true] at quiet
  exact quiet.1.1

/-- If what is left of the parameters is read as they are meant, nothing was lost. -/
theorem plain_of_readAfter {parameters : List (List Char × Piece)}
    {left : List (List Char × List Char)} {mark : Char}
    (named : ∀ parameter ∈ parameters, isName parameter.1 = true)
    (remain : RemainParameters left
      (parameters.map fun parameter => (parameter.1, parameter.2.written)))
    (reads : readAfter ((joinParameters mark left).drop 1) =
      parameters.map fun parameter => (bytes parameter.1, bytes parameter.2.meaning)) :
    left = parameters.map (fun parameter => (parameter.1, parameter.2.written)) ∧
      ∀ parameter ∈ parameters, parameter.2.Unescaped ∧
        ∀ character ∈ parameter.2.written, endsParameter character = false ∧ character ≠ '+' := by
  induction parameters generalizing left mark with
  | nil =>
    cases remain
    exact ⟨rfl, fun parameter member => nomatch member⟩
  | cons parameter parameters ih =>
    obtain ⟨first, later⟩ := List.forall_mem_cons.mp named
    cases remain with
    | @cons part _ others _ remains rest =>
      obtain ⟨name, value⟩ := part
      obtain ⟨ofName, ofValue⟩ := remains
      obtain rfl : name = parameter.1 := eq_of_remains_name first ofName
      obtain ⟨more, read, follow⟩ := exists_readAfter_cons first mark value others
      rw [read, List.map_cons, List.cons.injEq, Prod.mk.injEq] at reads
      obtain ⟨⟨_, meant⟩, others'⟩ := reads
      have keeps : Remains (value.takeWhile (!endsParameter ·)) value :=
        .takeWhile (fun character quiet => by rw [endsParameter_of_isQuiet quiet]; rfl) value
      obtain ⟨whole, unescaped, plus⟩ := Piece.eq_written_of_form (keeps.trans ofValue) meant
      have same : value.takeWhile (!endsParameter ·) = value := by
        refine keeps.1.antisymm ?_
        rw [whole]
        exact ofValue.1
      have plain : ∀ character ∈ value, endsParameter character = false := fun character member =>
        by simpa using List.takeWhile_eq_self_iff.mp same character member
      have written : value = parameter.2.written := same.symm.trans whole
      obtain ⟨tail, safe⟩ := ih later rest ((follow plain).symm.trans others')
      refine ⟨by rw [tail, List.map_cons, written], List.forall_mem_cons.mpr ⟨⟨unescaped, ?_⟩,
        safe⟩⟩
      intro character member
      exact ⟨plain character (written ▸ member), fun isPlus => plus (isPlus ▸ member)⟩

theorem readAfter_of_plainValues {parameters : List (List Char × Piece)} {mark : Char}
    (named : ∀ parameter ∈ parameters, isName parameter.1 = true)
    (plain : ∀ parameter ∈ parameters, parameter.2.PlainValue) :
    readAfter ((joinParameters mark
        (parameters.map fun parameter => (parameter.1, parameter.2.written))).drop 1) =
      parameters.map fun parameter => (bytes parameter.1, bytes parameter.2.meaning) := by
  induction parameters generalizing mark with
  | nil => rfl
  | cons parameter parameters ih =>
    obtain ⟨first, later⟩ := List.forall_mem_cons.mp named
    obtain ⟨value, values⟩ := List.forall_mem_cons.mp plain
    obtain ⟨quiet, unescaped⟩ := (Piece.plainValue_iff parameter.2).mp value
    have open' : ∀ character ∈ parameter.2.written, endsParameter character = false :=
      fun character member => (quiet character member).1
    have plus : '+' ∉ parameter.2.written := fun member => (quiet '+' member).2.1 rfl
    obtain ⟨others, read, follow⟩ := exists_readAfter_cons first mark parameter.2.written
      (parameters.map fun parameter => (parameter.1, parameter.2.written))
    rw [List.map_cons, read, follow open', ih later values, List.map_cons,
      takeWhile_of_not_endsParameter open', Piece.decodeForm_written unescaped plus]

/-- The parameters that are read behind a path that nothing ends early. -/
theorem parameters_readRest {segments : List (List Char)}
    (plain : ∀ segment ∈ segments, ∀ character ∈ segment, endsPath character = false)
    (scheme authority : List Char) (parameters : List (List Char × List Char)) :
    (readRest scheme authority (joinPath segments ++ joinParameters '?' parameters)).parameters =
      readAfter ((joinParameters '?' parameters).drop 1) := by
  have path : ∀ character ∈ joinPath segments,
      (character != '#') = true ∧ (character != '?') = true := by
    intro character member
    obtain ⟨segment, known, inside⟩ := List.mem_flatMap.mp member
    rcases List.mem_cons.mp inside with rfl | inside
    · exact ⟨by decide, by decide⟩
    · have stays := plain segment known character inside
      simp only [endsPath, Bool.or_eq_false_iff, beq_eq_false_iff_ne] at stays
      exact ⟨bne_iff_ne.mpr stays.2, bne_iff_ne.mpr stays.1⟩
  simp only [Url.parameters, readRest, splitAtSign]
  rw [List.takeWhile_append_of_pos fun character member => (path character member).1,
    List.dropWhile_append_of_pos fun character member => (path character member).2]
  cases parameters with
  | nil => rfl
  | cons parameter rest =>
    obtain ⟨name, value⟩ := parameter
    rw [joinParameters, List.takeWhile_cons_of_pos (by decide),
      List.dropWhile_cons_of_neg (by decide)]
    rfl

/-! ## Templates -/

theorem exists_remains_of_mem {parts texts : List (List Char)}
    (remain : List.Forall₂ Remains parts texts) {part : List Char} (member : part ∈ parts) :
    ∃ text ∈ texts, Remains part text := by
  induction remain with
  | nil => exact nomatch member
  | cons remains rest ih =>
    rcases List.mem_cons.mp member with rfl | later
    · exact ⟨_, List.mem_cons_self, remains⟩
    · obtain ⟨text, known, others⟩ := ih later
      exact ⟨text, List.mem_cons_of_mem _ known, others⟩

theorem mem_joinPath {segments : List (List Char)} {character : Char} :
    character ∈ joinPath segments →
      character = '/' ∨ ∃ segment ∈ segments, character ∈ segment := by
  intro member
  obtain ⟨segment, known, inside⟩ := List.mem_flatMap.mp member
  rcases List.mem_cons.mp inside with rfl | inside
  · exact .inl rfl
  · exact .inr ⟨segment, known, inside⟩

theorem mem_joinParameters {parameters : List (List Char × List Char)} {mark character : Char}
    (member : character ∈ joinParameters mark parameters) :
    character = mark ∨ character = '&' ∨ character = '=' ∨
      ∃ parameter ∈ parameters, character ∈ parameter.1 ∨ character ∈ parameter.2 := by
  induction parameters generalizing mark with
  | nil => exact nomatch member
  | cons parameter rest ih =>
    obtain ⟨name, value⟩ := parameter
    simp only [joinParameters, List.mem_cons, List.mem_append] at member
    rcases member with rfl | inName | rfl | inValue | later
    · exact .inl rfl
    · exact .inr (.inr (.inr ⟨_, List.mem_cons_self, .inl inName⟩))
    · exact .inr (.inr (.inl rfl))
    · exact .inr (.inr (.inr ⟨_, List.mem_cons_self, .inr inValue⟩))
    · rcases ih later with rfl | rfl | rfl | ⟨parameter, known, inside⟩
      · exact .inr (.inl rfl)
      · exact .inr (.inl rfl)
      · exact .inr (.inr (.inl rfl))
      · exact .inr (.inr (.inr ⟨parameter, List.mem_cons_of_mem _ known, inside⟩))

theorem mem_joinParameters_of_value {parameters : List (List Char × List Char)} {mark : Char}
    {parameter : List Char × List Char} (known : parameter ∈ parameters) {character : Char}
    (member : character ∈ parameter.2) : character ∈ joinParameters mark parameters := by
  induction parameters generalizing mark with
  | nil => exact nomatch known
  | cons first rest ih =>
    obtain ⟨name, value⟩ := first
    rw [joinParameters]
    refine List.mem_cons_of_mem _ (List.mem_append_right _ (List.mem_cons_of_mem _ ?_))
    rcases List.mem_cons.mp known with rfl | later
    · exact List.mem_append_left _ member
    · exact List.mem_append_right _ (ih later)

namespace Template

variable {template : Template}

theorem Plain.isBreak_text (plain : template.Plain) (well : template.WellFormed) :
    ∀ character ∈ template.text, isBreak character = false := by
  intro character member
  rcases List.mem_append.mp member with inPath | inParameters
  · rcases mem_joinPath inPath with rfl | ⟨segment, known, inside⟩
    · decide
    · obtain ⟨piece, found, rfl⟩ := List.mem_map.mp known
      have quiet := ((Piece.plainSegment_iff piece).mp (plain.segments piece found)).1
      exact (quiet character inside).2.2
  · rcases mem_joinParameters inParameters with rfl | rfl | rfl | ⟨parameter, known, inside⟩
    · decide
    · decide
    · decide
    · obtain ⟨source, found, rfl⟩ := List.mem_map.mp known
      rcases inside with inName | inValue
      · have quiet := List.all_eq_true.mp (well.named source found) character inName
        simp only [Bool.and_eq_true] at quiet
        exact isBreak_of_not_isBlank ((isQuiet_iff character).mp quiet.1.1).1
      · have quiet := ((Piece.plainValue_iff source.2).mp (plain.parameters source found)).1
        exact (quiet character inValue).2.2

/-- The address is read as a template is meant exactly when every part is plain. -/
theorem readAs_iff_plain (well : template.WellFormed) (scheme authority : List Char) :
    template.ReadAs (readRest scheme authority (tidyEnd template.text)) ↔ template.Plain := by
  constructor
  · rintro ⟨segments, parameters⟩
    obtain ⟨left, others, tidied, remain, remainOthers⟩ :=
      exists_tidyEnd template.writtenSegments template.writtenParameters
    have separate : ∀ segment ∈ left, ∀ character ∈ segment, isSlash character = false := by
      intro segment member character inside
      obtain ⟨whole, known, remains⟩ := exists_remains_of_mem remain member
      obtain ⟨piece, found, rfl⟩ := List.mem_map.mp known
      exact well.separate piece found character (remains.1.subset inside)
    have nonempty : left ≠ [] := by
      rintro rfl
      exact well.nonempty (List.map_eq_nil_iff.mp (List.forall₂_nil_left_iff.mp remain))
    rw [text, tidied] at segments parameters
    rw [Url.segments, path_readRest nonempty separate] at segments
    obtain ⟨whole, path, parts⟩ := plain_of_resolve well.last remain segments
    rw [parameters_readRest path] at parameters
    obtain ⟨wholeOthers, values⟩ := plain_of_readAfter well.named remainOthers parameters
    have same : tidyEnd template.text = template.text := by
      rw [text, tidied, whole, wholeOthers]
      rfl
    obtain ⟨breaks, visible⟩ := tidyEnd_eq_self_iff.mp same
    refine ⟨fun piece member => ?_, fun parameter member => ?_, visible⟩
    · refine (Piece.plainSegment_iff piece).mpr ⟨fun character inside => ?_, parts piece member⟩
      have written : piece.written ∈ left := whole ▸ List.mem_map_of_mem member
      refine ⟨well.separate piece member character inside, path _ written character inside,
        breaks character (List.mem_append_left _ (List.mem_flatMap.mpr
          ⟨piece.written, List.mem_map_of_mem member, List.mem_cons_of_mem _ inside⟩))⟩
    · obtain ⟨unescaped, quiet⟩ := values parameter member
      refine (Piece.plainValue_iff parameter.2).mpr ⟨fun character inside => ?_, unescaped⟩
      have written : (parameter.1, parameter.2.written) ∈ template.writtenParameters :=
        List.mem_map_of_mem member
      exact ⟨(quiet character inside).1, (quiet character inside).2, breaks character
        (List.mem_append_right _ (mem_joinParameters_of_value written inside))⟩
  · intro plain
    have path : ∀ segment ∈ template.writtenSegments, ∀ character ∈ segment,
        isSlash character = false ∧ endsPath character = false := by
      intro segment member character inside
      obtain ⟨piece, known, rfl⟩ := List.mem_map.mp member
      have quiet := ((Piece.plainSegment_iff piece).mp (plain.segments piece known)).1
      exact ⟨(quiet character inside).1, (quiet character inside).2.1⟩
    have nonempty : template.writtenSegments ≠ [] :=
      fun empty => well.nonempty (List.map_eq_nil_iff.mp empty)
    rw [tidyEnd_eq_self_iff.mpr ⟨plain.isBreak_text well, plain.visible⟩]
    refine ⟨?_, ?_⟩
    · rw [Url.segments, text, path_readRest nonempty
        fun segment member character inside => (path segment member character inside).1]
      exact resolve_of_plainSegments plain.segments
    · rw [text, parameters_readRest
        fun segment member character inside => (path segment member character inside).2]
      exact readAfter_of_plainValues well.named plain.parameters

end Template

/-! ## Segments that are split -/

theorem of_mem_splitOnP {text part : List Char} (member : part ∈ text.splitOnP isSlash) :
    part.Sublist text ∧ ∀ character ∈ part, isSlash character = false := by
  induction text generalizing part with
  | nil =>
    obtain rfl : part = [] := by simpa using member
    exact ⟨List.Sublist.refl [], fun character inside => nomatch inside⟩
  | cons first text ih =>
    rw [List.splitOnP_cons_eq_if_modifyHead] at member
    split at member
    · rcases List.mem_cons.mp member with rfl | later
      · exact ⟨List.nil_sublist _, fun character inside => nomatch inside⟩
      · exact ⟨(ih later).1.cons first, (ih later).2⟩
    next plain =>
      obtain ⟨head, others, split⟩ :=
        List.exists_cons_of_ne_nil (List.splitOnP_ne_nil isSlash text)
      rw [split] at member ih
      rcases List.mem_cons.mp member with rfl | later
      · obtain ⟨within, separate⟩ := ih List.mem_cons_self
        exact ⟨within.cons_cons first, List.forall_mem_cons.mpr
          ⟨Bool.eq_false_iff.mpr plain, separate⟩⟩
      · obtain ⟨within, separate⟩ := ih (List.mem_cons_of_mem _ later)
        exact ⟨within.cons first, separate⟩

/-- What stands between two slashes of a path that is cut off belongs to one segment. -/
theorem exists_sublist_of_mem_splitOnP {segments : List (List Char)} {part : List Char}
    (member : part ∈ ((joinPath segments).takeWhile (!endsPath ·)).splitOnP isSlash) :
    part = [] ∨ ∃ segment ∈ segments, part.Sublist segment := by
  induction segments with
  | nil => exact .inl (by simpa using member)
  | cons segment rest ih =>
    have apart := List.splitOnP_append_cons [] ((segment ++ joinPath rest).takeWhile
      (!endsPath ·)) (show isSlash '/' = true by decide)
    rw [List.nil_append, List.splitOnP_nil] at apart
    rw [joinPath_cons, List.takeWhile_cons_of_pos (by decide), apart] at member
    rcases List.mem_append.mp member with first | later
    · exact .inl (List.mem_singleton.mp first)
    · rw [List.takeWhile_append] at later
      split at later
      · cases rest with
        | nil =>
          rw [joinPath_nil, List.takeWhile_nil, List.append_nil] at later
          exact .inr ⟨segment, List.mem_cons_self, (of_mem_splitOnP later).1⟩
        | cons next rest =>
          rw [joinPath_cons, List.takeWhile_cons_of_pos (by decide),
            List.splitOnP_append_cons _ _ (show isSlash '/' = true by decide)] at later
          rcases List.mem_append.mp later with inside | behind
          · exact .inr ⟨segment, List.mem_cons_self, (of_mem_splitOnP inside).1⟩
          · have again := List.splitOnP_append_cons [] ((next ++ joinPath rest).takeWhile
              (!endsPath ·)) (show isSlash '/' = true by decide)
            rw [List.nil_append, List.splitOnP_nil] at again
            rw [joinPath_cons, List.takeWhile_cons_of_pos (by decide), again] at ih
            rcases ih (List.mem_append_right _ behind) with empty | ⟨other, known, within⟩
            · exact .inl empty
            · exact .inr ⟨other, List.mem_cons_of_mem _ known, within⟩
      · exact .inr ⟨segment, List.mem_cons_self,
          (of_mem_splitOnP later).1.trans (List.takeWhile_sublist _)⟩

theorem mem_resolve {entered segments : List (List Char)} {segment : List Char}
    (member : segment ∈ resolve entered segments) :
    segment ∈ entered ∨ segment ∈ segments ∨ segment = [] := by
  fun_induction resolve entered segments with
  | case1 => exact .inl member
  | case2 entered last dots =>
    rcases List.mem_append.mp member with before | empty
    · exact .inl ((List.dropLast_sublist entered).subset before)
    · exact .inr (.inr (List.mem_singleton.mp empty))
  | case3 entered last _ dots =>
    rcases List.mem_append.mp member with before | empty
    · exact .inl before
    · exact .inr (.inr (List.mem_singleton.mp empty))
  | case4 entered last =>
    rcases List.mem_append.mp member with before | same
    · exact .inl before
    · exact .inr (.inl same)
  | case5 entered first rest more dots ih =>
    rcases ih member with before | later | empty
    · exact .inl ((List.dropLast_sublist entered).subset before)
    · exact .inr (.inl (List.mem_cons_of_mem _ later))
    · exact .inr (.inr empty)
  | case6 entered first rest more _ dots ih =>
    rcases ih member with before | later | empty
    · exact .inl before
    · exact .inr (.inl (List.mem_cons_of_mem _ later))
    · exact .inr (.inr empty)
  | case7 entered first rest more _ _ ih =>
    rcases ih member with before | later | empty
    · rcases List.mem_append.mp before with earlier | same
      · exact .inl earlier
      · exact .inr (.inl (List.mem_singleton.mp same ▸ List.mem_cons_self))
    · exact .inr (.inl (List.mem_cons_of_mem _ later))
    · exact .inr (.inr empty)

/-- Every segment that is read comes from one segment that was written. -/
theorem exists_of_mem_path {segments : List (List Char)} (nonempty : segments ≠ [])
    (scheme authority : List Char) (parameters : List (List Char × List Char))
    {read : List Char}
    (member : read ∈ (readRest scheme authority
      (joinPath segments ++ joinParameters '?' parameters)).path) :
    decode read = [] ∨ ∃ part, decode read = decode part ∧
      (∀ character ∈ part, isSlash character = false) ∧
      ∃ segment ∈ segments, part.Sublist segment := by
  have cut : (joinPath segments ++ joinParameters '?' parameters).takeWhile (!endsPath ·) =
      (joinPath segments).takeWhile (!endsPath ·) := by
    rw [List.takeWhile_append, takeWhile_ends_joinParameters, List.append_nil]
    split
    next whole => exact ((List.takeWhile_prefix _).eq_of_length whole).symm
    next => rfl
  rw [path_readRest_eq] at member
  rcases mem_resolve member with impossible | written | rfl
  · exact nomatch impossible
  · obtain ⟨part, known, rfl⟩ := List.mem_map.mp written
    rw [cut] at known
    have inside : part ∈ ((joinPath segments).takeWhile (!endsPath ·)).splitOnP isSlash := by
      obtain ⟨first, rest, rfl⟩ := List.exists_cons_of_ne_nil nonempty
      rw [joinPath_cons, List.takeWhile_cons_of_pos (by decide)] at known ⊢
      have apart := List.splitOnP_append_cons [] ((first ++ joinPath rest).takeWhile
        (!endsPath ·)) (show isSlash '/' = true by decide)
      rw [List.nil_append] at apart
      rw [apart]
      exact List.mem_append_right _ known
    rw [decode_encode harmless_pathSpecial]
    rcases exists_sublist_of_mem_splitOnP inside with rfl | found
    · exact .inl rfl
    · exact .inr ⟨part, rfl, (of_mem_splitOnP inside).2, found⟩
  · exact .inl rfl

/-- A segment that is written with a slash in it is not read as one segment, unless another one
is read as it. -/
theorem Template.not_readAs_of_isSlash {template : Template} {front back : List Piece}
    {text : List Char} (parts : template.segments = front ++ .raw text :: back)
    {slash : Char} (member : slash ∈ text) (splits : isSlash slash = true)
    (others : ∀ piece ∈ front ++ back, '%' ∉ piece.written) (scheme authority : List Char) :
    ¬ template.ReadAs (readRest scheme authority (tidyEnd template.text)) := by
  rintro ⟨segments, -⟩
  obtain ⟨left, parameters, tidied, remain, -⟩ :=
    exists_tidyEnd template.writtenSegments template.writtenParameters
  have nonempty : left ≠ [] := by
    rintro rfl
    have empty := List.map_eq_nil_iff.mp (List.forall₂_nil_left_iff.mp remain)
    rw [parts] at empty
    exact absurd empty (by simp)
  have wanted : bytes text ∈ (readRest scheme authority (tidyEnd template.text)).segments := by
    rw [segments, parts]
    exact List.mem_map.mpr ⟨.raw text, List.mem_append_right _ List.mem_cons_self, rfl⟩
  obtain ⟨read, inPath, same⟩ := List.mem_map.mp wanted
  rw [Template.text, tidied] at inPath
  rcases exists_of_mem_path nonempty scheme authority parameters inPath with
    empty | ⟨part, reads, separate, segment, known, within⟩
  · rw [same] at empty
    rw [bytes_eq_nil empty] at member
    exact nomatch member
  · rw [same] at reads
    obtain ⟨whole, written, remains⟩ := exists_remains_of_mem remain known
    obtain ⟨piece, found, rfl⟩ := List.mem_map.mp written
    have sublist := within.trans remains.1
    have same : part = text := by
      rw [parts] at found
      rcases List.mem_append.mp found with before | after
      · have none := others piece (List.mem_append_left _ before)
        rw [← bytes_inj, reads, decode_of_not_hasEscape
          (not_hasEscape_of_notMem fun percent => none (sublist.subset percent))]
      · rcases List.mem_cons.mp after with rfl | later
        · exact (eq_of_decode_eq_bytes sublist reads.symm).1
        · have none := others piece (List.mem_append_right _ later)
          rw [← bytes_inj, reads, decode_of_not_hasEscape
            (not_hasEscape_of_notMem fun percent => none (sublist.subset percent))]
    rw [← same] at member
    exact absurd ((separate slash member).symm.trans splits) Bool.false_ne_true

/-! ## Servers -/

/-- The scheme and authority of a server. -/
structure Origin where
  scheme : List Char
  authority : List Char
  known : scheme = "http".toList ∨ scheme = "https".toList
  nonempty : authority ≠ []
  quiet : ∀ character ∈ authority, endsAuthority character = false ∧ isBreak character = false

namespace Origin

/-- What is written before the path. -/
def text (origin : Origin) : List Char :=
  origin.scheme ++ ':' :: '/' :: '/' :: origin.authority

theorem tidy_append (origin : Origin) (rest : List Char) :
    tidy (origin.text ++ '/' :: rest) = origin.text ++ '/' :: tidyEnd rest := by
  have begins : (origin.text ++ '/' :: rest).dropWhile isBlank = origin.text ++ '/' :: rest := by
    rcases origin.known with same | same <;> rw [text, same] <;> rfl
  have scheme : ∀ character ∈ origin.scheme, isBreak character = false := by
    rcases origin.known with same | same <;> rw [same] <;> simp [isBreak]
  have stays : origin.text.filter (!isBreak ·) = origin.text := by
    refine List.filter_eq_self.mpr fun character member => ?_
    rcases List.mem_append.mp member with first | second
    · rw [scheme character first]
      rfl
    · simp only [List.mem_cons] at second
      rcases second with rfl | rfl | rfl | inside
      · decide
      · decide
      · decide
      · rw [(origin.quiet character inside).2]
        rfl
  rw [tidy, begins, tidyEnd_append_cons (by decide), stays]

/-- What is written behind an origin is read as the rest of an address of this origin. -/
theorem parse_append (origin : Origin) (rest : List Char) :
    parse (origin.text ++ '/' :: rest) =
      some (readRest origin.scheme origin.authority (tidyEnd ('/' :: rest))) := by
  have back := tidyEnd_append_cons (show isBlank '/' = false by decide) [] rest
  rw [List.filter_nil, List.nil_append, List.nil_append] at back
  have noColon : ∀ character ∈ origin.scheme, (character != ':') = true := by
    rcases origin.known with same | same <;> rw [same] <;> simp
  have open' : ∀ character ∈ origin.authority, (!endsAuthority character) = true :=
    fun character member => by rw [(origin.quiet character member).1]; rfl
  have known : origin.scheme.map Char.toLower = origin.scheme := by
    rcases origin.known with same | same <;> rw [same] <;> decide
  obtain ⟨first, others, starts⟩ := List.exists_cons_of_ne_nil origin.nonempty
  have noSlash : isSlash first = false := by
    have ends := (origin.quiet first (starts ▸ List.mem_cons_self)).1
    simp only [endsAuthority, Bool.or_eq_false_iff] at ends
    exact ends.1.1
  have behind : ('/' :: '/' :: (origin.authority ++ '/' :: tidyEnd rest)).dropWhile isSlash =
      origin.authority ++ '/' :: tidyEnd rest := by
    rw [List.dropWhile_cons_of_pos (by decide), List.dropWhile_cons_of_pos (by decide), starts,
      List.cons_append, List.dropWhile_cons_of_neg (by rw [noSlash]; exact Bool.false_ne_true)]
  rw [parse, tidy_append, back, text]
  simp only [splitAtSign, List.append_assoc, List.cons_append]
  rw [List.takeWhile_append_of_pos noColon, List.dropWhile_append_of_pos noColon,
    List.takeWhile_cons_of_neg (by decide), List.dropWhile_cons_of_neg (by decide),
    List.append_nil]
  simp only [known, behind]
  rw [if_pos origin.known, List.takeWhile_append_of_pos open', List.dropWhile_append_of_pos open',
    List.takeWhile_cons_of_neg (by decide), List.dropWhile_cons_of_neg (by decide),
    List.append_nil, if_neg (by simpa using origin.nonempty)]

end Origin

end Url
