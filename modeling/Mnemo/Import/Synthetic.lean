import Mnemo.Import.Payload

/-!
# Instants that are made up

The chunks of an export come without instants.  The parser gives them one second each, from the
moment it began; the job then refuses instants that are more than a few minutes ahead.
-/

namespace Mnemo
namespace Payload

open Rows (ImportMessage maxAge maxFutureDrift timestampErrors timestampErrors_eq_nil)

/-- No instant of the rows is refused, and the instants increase. -/
def Acceptable (showTime : DateTime → String) (checkedAt : DateTime)
    (messages : List ImportMessage) : Prop :=
  timestampErrors showTime checkedAt 0 messages [] = [] ∧
    messages.Pairwise fun first second => first.createdAt < second.createdAt

/-- The chunk at a position can be imported. -/
def Importable (payload : Json) (position : Nat) : Prop :=
  ∃ chunks, geminiChunks payload = .ok chunks ∧ ∃ chunk, chunks[position]? = some chunk ∧
    (geminiChunk chunk).isSome

/-- The second of a position. -/
def secondAt (baseTime : DateTime) (position : Nat) : DateTime :=
  baseTime + position * 1000000000

theorem position_of_mem {baseTime : DateTime} {position : Nat} {chunks : List Json}
    {message : ImportMessage} (member : message ∈ geminiMessages baseTime position chunks) :
    ∃ offset chunk, chunks[offset]? = some chunk ∧ (geminiChunk chunk).isSome ∧
      message.createdAt = secondAt baseTime (position + offset) := by
  induction chunks generalizing position with
  | nil => exact nomatch member
  | cons chunk chunks ih =>
    have later (rest : message ∈ geminiMessages baseTime (position + 1) chunks) :
        ∃ offset other, (chunk :: chunks)[offset]? = some other ∧ (geminiChunk other).isSome ∧
          message.createdAt = secondAt baseTime (position + offset) := by
      obtain ⟨offset, other, found, importable, dated⟩ := ih rest
      refine ⟨offset + 1, other, found, importable, ?_⟩
      rw [dated, Nat.add_assoc, Nat.add_comm 1]
    cases read : geminiChunk chunk with
    | none =>
      rw [geminiMessages, read] at member
      exact later member
    | some said =>
      rw [geminiMessages, read] at member
      rcases List.mem_cons.mp member with rfl | rest
      · exact ⟨0, chunk, rfl, by rw [read]; rfl, rfl⟩
      · exact later rest

theorem exists_mem_of_position {baseTime : DateTime} {position offset : Nat} {chunks : List Json}
    {chunk : Json} (found : chunks[offset]? = some chunk) (importable : (geminiChunk chunk).isSome) :
    ∃ message ∈ geminiMessages baseTime position chunks,
      message.createdAt = secondAt baseTime (position + offset) := by
  induction chunks generalizing position offset with
  | nil => exact nomatch found
  | cons first chunks ih =>
    cases offset with
    | zero =>
      obtain rfl : first = chunk := Option.some.inj found
      obtain ⟨said, read⟩ := Option.isSome_iff_exists.mp importable
      rw [geminiMessages, read]
      exact ⟨_, List.mem_cons_self, rfl⟩
    | succ offset =>
      obtain ⟨message, member, dated⟩ := @ih (position + 1) offset found
      refine ⟨message, ?_, by rw [dated, Nat.add_assoc, Nat.add_comm 1]⟩
      rw [geminiMessages]
      split
      · exact List.mem_cons_of_mem _ member
      · exact member

theorem geminiMessages_increasing (baseTime : DateTime) (position : Nat) (chunks : List Json) :
    (geminiMessages baseTime position chunks).Pairwise
        (fun first second => first.createdAt < second.createdAt) ∧
      ∀ message ∈ geminiMessages baseTime position chunks,
        baseTime + position * 1000000000 ≤ message.createdAt := by
  induction chunks generalizing position with
  | nil => simp [geminiMessages]
  | cons chunk chunks ih =>
    obtain ⟨increasing, later⟩ := ih (position + 1)
    unfold geminiMessages
    split
    · refine ⟨List.pairwise_cons.mpr ⟨fun message member => ?_, increasing⟩,
        List.forall_mem_cons.mpr ⟨le_refl _, fun message member => ?_⟩⟩
      · have after := later message member
        push_cast at after
        linarith
      · have after := later message member
        push_cast at after
        linarith
    · refine ⟨increasing, fun message member => ?_⟩
      have after := later message member
      push_cast at after
      linarith

/-! ## Exports -/

theorem parseGeminiExportPayload_eq {baseTime : DateTime} {payload : Json}
    {messages : List ImportMessage}
    (parsed : parseGeminiExportPayload baseTime payload = .ok messages) :
    ∃ chunks, geminiChunks payload = .ok chunks ∧ messages = geminiMessages baseTime 0 chunks := by
  unfold parseGeminiExportPayload at parsed
  cases listed : geminiChunks payload with
  | error error =>
    rw [listed] at parsed
    exact nomatch parsed
  | ok chunks =>
    rw [listed] at parsed
    dsimp only [bind, Except.bind] at parsed
    split at parsed
    · exact nomatch parsed
    · exact ⟨chunks, rfl, (Except.ok.inj parsed).symm⟩

theorem createdAt_iff {baseTime : DateTime} {payload : Json} {messages : List ImportMessage}
    (parsed : parseGeminiExportPayload baseTime payload = .ok messages) (instant : DateTime) :
    (∃ message ∈ messages, message.createdAt = instant) ↔
      ∃ position, Importable payload position ∧ instant = secondAt baseTime position := by
  obtain ⟨chunks, listed, rfl⟩ := parseGeminiExportPayload_eq parsed
  constructor
  · rintro ⟨message, member, rfl⟩
    obtain ⟨offset, chunk, found, importable, dated⟩ := position_of_mem member
    exact ⟨offset, ⟨chunks, listed, chunk, found, importable⟩, by rw [dated, Nat.zero_add]⟩
  · rintro ⟨position, ⟨other, sameList, chunk, found, importable⟩, rfl⟩
    obtain rfl := Except.ok.inj (listed.symm.trans sameList)
    obtain ⟨message, member, dated⟩ := exists_mem_of_position found importable
    exact ⟨message, member, by rw [dated, Nat.zero_add]⟩

/-- The rows of an export that is checked when it has been parsed are acceptable exactly when its
last chunk that can be imported is not further from the start than rows may be ahead. -/
theorem acceptable_iff {showTime : DateTime → String} {baseTime checkedAt : DateTime}
    {payload : Json} {messages : List ImportMessage}
    (parsed : parseGeminiExportPayload baseTime payload = .ok messages)
    (soon : checkedAt ≤ baseTime + maxAge) :
    Acceptable showTime checkedAt messages ↔
      ∀ position, Importable payload position →
        (position : Int) * 1000000000 ≤ maxFutureDrift + (checkedAt - baseTime) := by
  have increasing : messages.Pairwise fun first second => first.createdAt < second.createdAt := by
    obtain ⟨chunks, _, rfl⟩ := parseGeminiExportPayload_eq parsed
    exact (geminiMessages_increasing baseTime 0 chunks).1
  rw [Acceptable, and_iff_left increasing, timestampErrors_eq_nil, and_iff_right rfl]
  constructor
  · intro inTime position importable
    obtain ⟨message, member, dated⟩ := (createdAt_iff parsed _).mpr ⟨position, importable, rfl⟩
    have early := (inTime message member).1
    rw [dated, secondAt] at early
    linarith
  · intro near message member
    obtain ⟨position, importable, dated⟩ := (createdAt_iff parsed _).mp ⟨message, member, rfl⟩
    have early := near position importable
    have nonneg : (0 : Int) ≤ position := Int.natCast_nonneg position
    rw [dated, secondAt]
    constructor <;> linarith

/-! ### Long exports -/

/-- A chunk of one word. -/
def plainChunk : Json := .object [("role", .string "user"), ("text", .string "hi")]

/-- An export of which the last chunk alone can be imported. -/
def lateExport (before : Nat) : Json :=
  .object [("chunkedPrompt", .object
    [("chunks", .array (List.replicate before .null ++ [plainChunk]))])]

theorem lateExport_parsed (before : Nat) : parseGeminiExportPayload 0 (lateExport before) =
    .ok [⟨none, .user, "hi", secondAt 0 before⟩] := by
  have rows (position : Nat) : geminiMessages 0 position
      (List.replicate before .null ++ [plainChunk]) =
        [⟨none, .user, "hi", secondAt 0 (position + before)⟩] := by
    induction before generalizing position with
    | zero => rfl
    | succ before ih =>
      rw [List.replicate_succ, List.cons_append, geminiMessages]
      exact (ih (position + 1)).trans (by rw [Nat.add_assoc, Nat.add_comm 1])
  have parsed := rows 0
  rw [Nat.zero_add] at parsed
  unfold parseGeminiExportPayload
  show (if (geminiMessages 0 0 (List.replicate before .null ++ [plainChunk])).isEmpty then _
    else _) = _
  rw [parsed]
  rfl

/-- The one chunk of a short export is accepted at once. -/
theorem short_acceptable : Acceptable toString 0 [⟨none, .user, "hi", secondAt 0 1⟩] := by
  refine (acceptable_iff (lateExport_parsed 1) (by decide)).mpr ?_
  rintro position ⟨chunks, listed, chunk, found, _⟩
  obtain rfl : [Json.null, plainChunk] = chunks := Except.ok.inj listed
  have within : position < 2 := (List.getElem?_eq_some_iff.mp found).1
  have bound : (position : Int) ≤ 1 := by omega
  calc (position : Int) * 1000000000 ≤ 1 * 1000000000 := by omega
    _ ≤ maxFutureDrift + (0 - 0) := by decide

/-- The last of three hundred and two chunks is refused. -/
theorem long_refused :
    ¬ ∀ (showTime : DateTime → String) (baseTime checkedAt : DateTime) (payload : Json)
      (messages : List ImportMessage),
      parseGeminiExportPayload baseTime payload = .ok messages → baseTime ≤ checkedAt →
      checkedAt ≤ baseTime + maxAge → Acceptable showTime checkedAt messages := by
  intro always
  have accepted := always toString 0 0 (lateExport 301) _ (lateExport_parsed 301) (le_refl 0)
    (by decide)
  have early := ((timestampErrors_eq_nil.mp accepted.1).2 _ List.mem_cons_self).1
  exact absurd early (by decide)

end Payload
end Mnemo
