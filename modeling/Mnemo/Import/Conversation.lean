import Mnemo.Import.Payload

/-!
# The order of a conversation

The nodes of an exported conversation come in no order, and are sorted by their instants.  An
instant is kept in whole seconds, so nodes of one second are not told apart.
-/

namespace Mnemo
namespace Payload

open Rows (ImportMessage)
open Compression (toI64)

/-! ## Instants of nodes -/

section Nodes

variable (reader : PayloadReader)

/-- The instant of a node, if it has one that the calendar has. -/
def ChatgptNode.instant (node : ChatgptNode) : Option DateTime :=
  node.createTime.bind fun time => reader.calendar.fromTimestamp (toI64 time)

theorem ChatgptNode.createdAt_eq (node : ChatgptNode) (now : DateTime) :
    node.createdAt reader now = (node.instant reader).getD now := rfl

/-- A node is of an earlier time than another. -/
def Earlier (first second : ChatgptNode) : Prop :=
  ∃ before, first.createTime = some before ∧ ∃ after, second.createTime = some after ∧
    before < after

/-- The calendar has the whole seconds of two nodes, which are different. -/
def Apart (first second : ChatgptNode) : Prop :=
  ∃ before, first.instant reader = some before ∧ ∃ after, second.instant reader = some after ∧
    before ≠ after

/-- The rows are those of the nodes in the order of their times, at increasing instants. -/
def InOrder (nodes : List ChatgptNode) (messages : List ImportMessage) : Prop :=
  ∃ ordered : List ChatgptNode, ordered.Perm nodes ∧ ordered.Pairwise Earlier ∧
    messages.map (fun message => (message.role, message.content)) =
      ordered.map (fun node => (node.role, node.content)) ∧
    messages.Pairwise fun first second => first.createdAt < second.createdAt

/-- Whatever the clock shows, each conversation of an export is imported in order. -/
def KeepsOrder (payload : Json) : Prop :=
  ∀ clock messages, parseChatgptExportPayload reader clock payload = .ok messages →
    ∃ items parts, conversations payload = .ok items ∧ messages = parts.flatten ∧
      List.Forall₂ (fun conversation part => InOrder (chatgptNodes reader conversation) part)
        items parts

/-- The nodes of each conversation of an export are of different seconds. -/
def SecondsApart (payload : Json) : Prop :=
  ∀ items, conversations payload = .ok items →
    ∀ conversation ∈ items, (chatgptNodes reader conversation).Pairwise (Apart reader)

variable {reader}

theorem Apart.symm {first second : ChatgptNode} (apart : Apart reader first second) :
    Apart reader second first := by
  obtain ⟨before, known, after, also, different⟩ := apart
  exact ⟨after, also, before, known, different.symm⟩

theorem toI64_mono {first second : ℚ} (le : first ≤ second) : toI64 first ≤ toI64 second := by
  unfold toI64
  refine max_le_max_left _ (min_le_min_left _ ?_)
  split
  · rename_i nonneg
    rw [if_pos (nonneg.trans le)]
    exact Int.floor_le_floor le
  · rename_i negative
    split
    · rename_i nonneg
      have below : ⌈first⌉ ≤ 0 := Int.ceil_le.mpr (by simpa using (not_le.mp negative).le)
      exact below.trans (Int.floor_nonneg.mpr nonneg)
    · exact Int.ceil_le_ceil le

theorem instant_eq_some {node : ChatgptNode} {instant : DateTime}
    (known : node.instant reader = some instant) :
    ∃ time, node.createTime = some time ∧ instant = toI64 time * 1000000000 := by
  obtain ⟨time, timed, represented⟩ := Option.bind_eq_some_iff.mp known
  exact ⟨time, timed, (Calendar.represent_eq_some.mp represented).2.symm⟩

theorem earlier_of_instant {first second : ChatgptNode} {before after : DateTime}
    (known : first.instant reader = some before) (also : second.instant reader = some after)
    (less : before < after) : Earlier first second := by
  obtain ⟨time, timed, rfl⟩ := instant_eq_some known
  obtain ⟨other, otherTimed, rfl⟩ := instant_eq_some also
  refine ⟨time, timed, other, otherTimed, not_le.mp fun late => ?_⟩
  have cut : toI64 other * 1000000000 ≤ toI64 time * 1000000000 :=
    Int.mul_le_mul_of_nonneg_right (toI64_mono late) (by decide)
  exact absurd less (not_lt.mpr cut)

theorem apart_of_createdAt_ne {first second : ChatgptNode}
    (different : ∀ now, first.createdAt reader now ≠ second.createdAt reader now) :
    Apart reader first second := by
  simp only [ChatgptNode.createdAt_eq] at different
  cases known : first.instant reader with
  | none =>
    refine absurd ?_ (different ((second.instant reader).getD 0))
    cases also : second.instant reader <;> simp [known]
  | some before =>
    cases also : second.instant reader with
    | none => exact absurd (by simp [known, also]) (different before)
    | some after =>
      refine ⟨before, known, after, also, fun same => different before ?_⟩
      simp [known, also, same]

end Nodes

/-! ## One conversation -/

section Positions

variable {α β γ : Type}

theorem map_mapIdx (values : List α) (make : Nat → α → β) (read : β → γ) :
    (values.mapIdx make).map read = values.mapIdx fun position value => read (make position value) :=
  (List.mapIdx_eq_iff.mpr fun position => by simp [Function.comp_def]).symm

theorem mapIdx_const (read : α → β) (values : List α) :
    (values.mapIdx fun _ value => read value) = values.map read :=
  List.mapIdx_eq_iff.mpr fun position => by simp

end Positions

section Conversations

variable {reader : PayloadReader} {conversation : Json}

theorem InOrder.length_eq {nodes : List ChatgptNode} {messages : List ImportMessage}
    (ordered : InOrder nodes messages) : messages.length = nodes.length := by
  obtain ⟨sorted, perm, _, same, _⟩ := ordered
  have lengths := congrArg List.length same
  rw [List.length_map, List.length_map] at lengths
  rw [lengths, perm.length_eq]

theorem InOrder.nodup {nodes : List ChatgptNode} {messages : List ImportMessage}
    (ordered : InOrder nodes messages) : (messages.map ImportMessage.createdAt).Nodup := by
  obtain ⟨_, _, _, _, increasing⟩ := ordered
  exact List.pairwise_map.mpr (increasing.imp fun less => ne_of_lt less)

theorem importConversation_perm (clock : Nat → DateTime) :
    ∃ title, (importConversation reader clock conversation).Perm
      ((chatgptNodes reader conversation).mapIdx fun position node =>
        node.message reader title (clock position)) :=
  ⟨_, List.mergeSort_perm _ _⟩

theorem length_importConversation (clock : Nat → DateTime) :
    (importConversation reader clock conversation).length =
      (chatgptNodes reader conversation).length := by
  obtain ⟨title, perm⟩ := @importConversation_perm reader conversation clock
  rw [perm.length_eq, List.length_mapIdx]

/-- The first of two rows is not of a later instant. -/
def byInstant (first second : ChatgptNode × ImportMessage) : Bool :=
  first.2.createdAt ≤ second.2.createdAt

/-- The nodes of a conversation with their rows, in the order of the rows. -/
def sortedRows (reader : PayloadReader) (clock : Nat → DateTime) (conversation : Json) :
    List (ChatgptNode × ImportMessage) :=
  let title := ((field "title" conversation).bind asStr).bind nonBlank
  let rows := (chatgptNodes reader conversation).mapIdx fun position node =>
    (node, node.message reader title (clock position))
  rows.mergeSort byInstant

theorem sortedRows_nodes (clock : Nat → DateTime) :
    ((sortedRows reader clock conversation).map Prod.fst).Perm
      (chatgptNodes reader conversation) := by
  refine ((List.mergeSort_perm _ _).map Prod.fst).trans (List.Perm.of_eq ?_)
  rw [map_mapIdx]
  exact mapIdx_const id _ |>.trans (List.map_id _)

theorem sortedRows_rows (clock : Nat → DateTime) :
    (sortedRows reader clock conversation).map Prod.snd =
      importConversation reader clock conversation := by
  unfold sortedRows importConversation
  dsimp only
  rw [List.map_mergeSort (r := byInstant) (f := Prod.snd)
    (s := fun first second : ImportMessage => first.createdAt ≤ second.createdAt)
    fun _ _ _ _ => rfl, map_mapIdx]

theorem mem_sortedRows {clock : Nat → DateTime} {row : ChatgptNode × ImportMessage}
    (member : row ∈ sortedRows reader clock conversation) :
    ∃ title now, row.2 = row.1.message reader title now := by
  obtain ⟨position, within, rfl⟩ := List.mem_mapIdx.mp ((List.mergeSort_perm _ _).mem_iff.mp member)
  exact ⟨_, _, rfl⟩

theorem sortedRows_sorted (clock : Nat → DateTime) :
    (sortedRows reader clock conversation).Pairwise fun first second =>
      first.2.createdAt ≤ second.2.createdAt := by
  refine (List.pairwise_mergeSort (fun first second third => ?_) (fun first second => ?_) _).imp
    fun {first second} (ordered : byInstant first second) => of_decide_eq_true ordered
  · simp only [byInstant, decide_eq_true_eq]
    exact le_trans
  · simp only [byInstant, Bool.or_eq_true, decide_eq_true_eq]
    exact le_total _ _

theorem sortedRows_strict (apart : (chatgptNodes reader conversation).Pairwise (Apart reader))
    (clock : Nat → DateTime) :
    (sortedRows reader clock conversation).Pairwise fun first second =>
      Earlier first.1 second.1 ∧ first.2.createdAt < second.2.createdAt := by
  have distinct := List.pairwise_map.mp
    (((sortedRows_nodes clock).pairwise_iff Apart.symm).mpr apart)
  refine ((sortedRows_sorted clock).and distinct).imp_of_mem
    fun {first second} firstMember secondMember both => ?_
  obtain ⟨le, before, known, after, also, different⟩ := both
  obtain ⟨title, now, same⟩ := mem_sortedRows firstMember
  obtain ⟨other, moment, alike⟩ := mem_sortedRows secondMember
  have dated : first.2.createdAt = before := by
    rw [same, ChatgptNode.message, ChatgptNode.createdAt_eq, known, Option.getD_some]
  have redated : second.2.createdAt = after := by
    rw [alike, ChatgptNode.message, ChatgptNode.createdAt_eq, also, Option.getD_some]
  rw [dated, redated] at le ⊢
  exact ⟨earlier_of_instant known also (lt_of_le_of_ne le different), lt_of_le_of_ne le different⟩

theorem inOrder_of_apart (apart : (chatgptNodes reader conversation).Pairwise (Apart reader))
    (clock : Nat → DateTime) :
    InOrder (chatgptNodes reader conversation) (importConversation reader clock conversation) := by
  refine ⟨(sortedRows reader clock conversation).map Prod.fst, sortedRows_nodes clock, ?_, ?_, ?_⟩
  · exact List.pairwise_map.mpr ((sortedRows_strict apart clock).imp fun both => both.1)
  · rw [← sortedRows_rows, List.map_map, List.map_map]
    refine List.map_congr_left fun row member => ?_
    obtain ⟨title, now, same⟩ := mem_sortedRows member
    rw [Function.comp_apply, Function.comp_apply, same]
    rfl
  · rw [← sortedRows_rows]
    exact List.pairwise_map.mpr ((sortedRows_strict apart clock).imp fun both => both.2)

theorem apart_of_inOrder
    (ordered : ∀ now, InOrder (chatgptNodes reader conversation)
      (importConversation reader (fun _ => now) conversation)) :
    (chatgptNodes reader conversation).Pairwise (Apart reader) := by
  have different (now : DateTime) : (chatgptNodes reader conversation).Pairwise
      fun first second => first.createdAt reader now ≠ second.createdAt reader now := by
    obtain ⟨title, perm⟩ := @importConversation_perm reader conversation fun _ => now
    have nodup := ((perm.map ImportMessage.createdAt).nodup_iff).mp (ordered now).nodup
    have instants : ((chatgptNodes reader conversation).mapIdx fun _ node =>
        node.message reader title now).map ImportMessage.createdAt =
          (chatgptNodes reader conversation).map fun node => node.createdAt reader now := by
      rw [map_mapIdx]
      exact mapIdx_const (fun node : ChatgptNode => node.createdAt reader now) _
    rw [instants] at nodup
    exact List.pairwise_map.mp nodup
  rw [List.pairwise_iff_getElem]
  intro first second firstIn secondIn less
  exact apart_of_createdAt_ne fun now =>
    List.pairwise_iff_getElem.mp (different now) first second firstIn secondIn less

/-! ## Exports -/

theorem parseChatgptExportPayload_eq {clock : Nat → Nat → DateTime} {payload : Json}
    {items : List Json} {messages : List ImportMessage}
    (parsed : parseChatgptExportPayload reader clock payload = .ok messages)
    (listed : conversations payload = .ok items) :
    messages = (items.mapIdx fun position => importConversation reader (clock position)).flatten := by
  unfold parseChatgptExportPayload at parsed
  rw [listed] at parsed
  dsimp only [bind, Except.bind] at parsed
  split at parsed
  · exact nomatch parsed
  · exact (Except.ok.inj parsed).symm

theorem parseChatgptExportPayload_isOk {clock : Nat → Nat → DateTime} {payload : Json}
    {items : List Json} (listed : conversations payload = .ok items)
    (rows : (items.mapIdx fun position =>
      importConversation reader (clock position)).flatten ≠ []) :
    parseChatgptExportPayload reader clock payload =
      .ok (items.mapIdx fun position => importConversation reader (clock position)).flatten := by
  unfold parseChatgptExportPayload
  rw [listed]
  dsimp only [bind, Except.bind]
  rw [if_neg (by simpa using rows)]
  rfl

theorem parts_eq {items : List Json} {parts : List (List ImportMessage)}
    {convert : Json → List ImportMessage} (flat : (items.map convert).flatten = parts.flatten)
    (lengths : ∀ conversation, (convert conversation).length =
      (chatgptNodes reader conversation).length)
    (ordered : List.Forall₂ (fun conversation part =>
      InOrder (chatgptNodes reader conversation) part) items parts) :
    items.map convert = parts := by
  refine List.eq_iff_flatten_eq.mpr ⟨flat, ?_⟩
  clear flat
  induction ordered with
  | nil => rfl
  | cons inOrder _ ih => simp [lengths, inOrder.length_eq, ih]

theorem secondsApart_of_keepsOrder {payload : Json} (keeps : KeepsOrder reader payload) :
    SecondsApart reader payload := by
  intro items listed conversation member
  refine apart_of_inOrder fun now => ?_
  set convert := importConversation reader fun _ => now with convert_eq
  have constant : (items.mapIdx fun _ => convert) = items.map convert := mapIdx_const convert items
  by_cases rows : (items.mapIdx fun _ => convert).flatten = []
  · -- Without rows there are no nodes, and nothing to put in order.
    have empty : convert conversation = [] := by
      rw [constant] at rows
      exact List.flatten_eq_nil_iff.mp rows _ (List.mem_map_of_mem member)
    have none : chatgptNodes reader conversation = [] := by
      have lengths := @length_importConversation reader conversation fun _ => now
      rw [← convert_eq, empty] at lengths
      exact List.length_eq_zero_iff.mp lengths.symm
    rw [none, empty]
    exact ⟨[], List.Perm.nil, List.Pairwise.nil, rfl, List.Pairwise.nil⟩
  · obtain ⟨found, parts, sameItems, flat, ordered⟩ :=
      keeps (fun _ _ => now) _ (parseChatgptExportPayload_isOk listed rows)
    obtain rfl := Except.ok.inj (listed.symm.trans sameItems)
    rw [← convert_eq, constant] at flat
    have same := parts_eq flat (fun conversation => length_importConversation _) ordered
    rw [← same, List.forall₂_map_right_iff, List.forall₂_same] at ordered
    exact ordered conversation member

theorem keepsOrder_of_secondsApart {payload : Json} (apart : SecondsApart reader payload) :
    KeepsOrder reader payload := by
  intro clock messages parsed
  cases listed : conversations payload with
  | error error =>
    unfold parseChatgptExportPayload at parsed
    rw [listed] at parsed
    exact nomatch parsed
  | ok items =>
    refine ⟨items, _, rfl, parseChatgptExportPayload_eq parsed listed, ?_⟩
    rw [List.forall₂_iff_get]
    refine ⟨(List.length_mapIdx ..).symm, fun position within _ => ?_⟩
    rw [List.get_eq_getElem, List.get_eq_getElem, List.getElem_mapIdx]
    exact inOrder_of_apart (apart items listed _ (List.getElem_mem within)) _

/-- The conversations of an export are imported in order, whatever the clock shows, exactly when the
nodes of each are of different seconds, all of which the calendar has. -/
theorem keepsOrder_iff (reader : PayloadReader) (payload : Json) :
    KeepsOrder reader payload ↔ SecondsApart reader payload :=
  ⟨secondsApart_of_keepsOrder, keepsOrder_of_secondsApart⟩

/-! ### Two messages in one second -/

/-- The nodes of each conversation of an export are of different times. -/
def TimesApart (reader : PayloadReader) (payload : Json) : Prop :=
  ∀ items, conversations payload = .ok items → ∀ conversation ∈ items,
    (chatgptNodes reader conversation).Pairwise fun first second =>
      ∃ before, first.createTime = some before ∧ ∃ after, second.createTime = some after ∧
        before ≠ after

/-- A reader of two numbers. -/
def quarterReader : PayloadReader :=
  { fromStr := fun _ => .error "expected value"
    asF64 := fun literal => if literal = "100.25" then 401 / 4 else 403 / 4
    parseFromRfc3339 := fun _ => none
    calendar := { first := 0, last := 10 ^ 18, first_le := le_refl 0, le_last := by decide } }

/-- The node of a message. -/
def plainNode (role text time : String) : Json :=
  .object [("message", .object
    [("author", .object [("role", .string role)]),
      ("content", .object [("text", .string text)]), ("create_time", .number time)])]

/-- A question, and half a second later its answer. -/
def quickExport : Json :=
  .object [("mapping", .object [("a", plainNode "user" "hi" "100.25"),
    ("b", plainNode "assistant" "hello" "100.75")])]

theorem quickExport_nodes : chatgptNodes quarterReader quickExport =
    [⟨.user, "hi", some (401 / 4)⟩, ⟨.assistant, "hello", some (403 / 4)⟩] := by
  rfl

/-- Two messages of one second are imported at one instant. -/
theorem quick_out_of_order :
    ¬ ∀ (reader : PayloadReader) (payload : Json), TimesApart reader payload →
      KeepsOrder reader payload := by
  intro always
  have timesApart : TimesApart quarterReader quickExport := by
    intro items listed conversation member
    obtain rfl : [quickExport] = items := Except.ok.inj listed
    rw [List.mem_singleton.mp member, quickExport_nodes]
    simp
  have apart := secondsApart_of_keepsOrder (always quarterReader quickExport timesApart)
    [quickExport] rfl quickExport List.mem_cons_self
  rw [quickExport_nodes] at apart
  obtain ⟨before, known, after, also, different⟩ := List.rel_of_pairwise_cons apart
    List.mem_cons_self
  have cut : toI64 (401 / 4) = toI64 (403 / 4) := by decide +kernel
  obtain ⟨time, timed, rfl⟩ := instant_eq_some known
  obtain ⟨other, otherTimed, rfl⟩ := instant_eq_some also
  rw [← Option.some.inj timed, ← Option.some.inj otherTimed, cut] at different
  exact different rfl

end Conversations
end Payload
end Mnemo
