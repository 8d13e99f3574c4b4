import Mathlib.Data.List.Basic
import Mathlib.Data.List.Perm.Basic
import Mathlib.Logic.Function.Basic

/-!
# Logs with a cap for every key

Rows are appended under keys, a key keeps its latest rows only, and it may be erased.  What is kept
is compared with everything that was appended.
-/

namespace CappedLog

/-- What is done to a log. -/
inductive Mark (Key Row : Type) where
  | append (key : Key) (row : Row)
  | erase (key : Key)

/-- The latest rows of a list. -/
def latest {Row : Type} (cap : Nat) (rows : List Row) : List Row := rows.drop (rows.length - cap)

variable {Key Row : Type}

/-- All rows that were appended, with their keys, the latest first. -/
def appended : List (Mark Key Row) → List (Key × Row)
  | [] => []
  | .append key row :: older => (key, row) :: appended older
  | .erase _ :: older => appended older

variable [DecidableEq Key]

/-- What a log contains after what was done to it, the latest mark first. -/
def contents (cap : Nat) : List (Mark Key Row) → Key → List Row
  | [] => fun _ => []
  | .append key row :: older =>
      Function.update (contents cap older) key (latest cap (contents cap older key ++ [row]))
  | .erase key :: older => Function.update (contents cap older) key []

/-- The room that a mark leaves for older rows. -/
def roomAfter (room : Key → Nat) : Mark Key Row → Key → Nat
  | .append key _ => Function.update room key (room key - 1)
  | .erase key => Function.update room key 0

/-- The rows for which there is room, with their keys, the latest first. -/
def kept (room : Key → Nat) : List (Mark Key Row) → List (Key × Row)
  | [] => []
  | .append key row :: older =>
      let others := kept (Function.update room key (room key - 1)) older
      if room key = 0 then others else (key, row) :: others
  | .erase key :: older => kept (Function.update room key 0) older

/-- Whether a mark appends a row under a key. -/
def Mark.appendsTo (key : Key) : Mark Key Row → Bool
  | .append other _ => other == key
  | .erase _ => false

/-- Newer marks leave the rows of a key alone: none erases it, and fewer than `cap` rows are
appended. -/
structure Outlives (cap : Nat) (key : Key) (newer : List (Mark Key Row)) : Prop where
  unerased : .erase key ∉ newer
  few : newer.countP (·.appendsTo key) < cap

/-- The rows of a key since it was erased, the latest first. -/
def since (key : Key) : List (Mark Key Row) → List Row
  | [] => []
  | .append other row :: older => if other = key then row :: since key older else since key older
  | .erase other :: older => if other = key then [] else since key older

variable {cap : Nat} {key : Key} {room : Key → Nat} {marks : List (Mark Key Row)}

/-! ## What is kept under one key -/

theorem latest_reverse (rows : List Row) : latest cap rows.reverse = (rows.take cap).reverse := by
  rw [latest, List.drop_reverse, List.length_reverse]
  congr 1
  rcases Nat.le_total rows.length cap with few | many
  · rw [List.take_of_length_le few, List.take_of_length_le (by omega)]
  · rw [Nat.sub_sub_self many]

theorem contents_eq (cap : Nat) (key : Key) (marks : List (Mark Key Row)) :
    contents cap marks key = ((since key marks).take cap).reverse := by
  induction marks with
  | nil => simp [contents, since]
  | cons mark older ih =>
    cases mark with
    | erase other =>
      rw [contents, since]
      by_cases same : other = key
      · subst same
        simp
      · rw [Function.update_of_ne (Ne.symm same), if_neg same, ih]
    | append other row =>
      rw [contents, since]
      by_cases same : other = key
      · subst same
        rw [Function.update_self, if_pos rfl, ih, ← List.reverse_cons, latest_reverse]
        cases cap with
        | zero => rfl
        | succ cap => rw [List.take_succ_cons, List.take_succ_cons, List.take_take,
            Nat.min_eq_left (Nat.le_succ cap)]
      · rw [Function.update_of_ne (Ne.symm same), if_neg same, ih]

theorem filter_kept (room : Key → Nat) (key : Key) (marks : List (Mark Key Row)) :
    (kept room marks).filter (·.1 == key) = ((since key marks).take (room key)).map (key, ·) := by
  induction marks generalizing room with
  | nil => simp [kept, since]
  | cons mark older ih =>
    cases mark with
    | erase other =>
      rw [kept, since, ih]
      by_cases same : other = key
      · subst same
        simp
      · rw [Function.update_of_ne (Ne.symm same), if_neg same]
    | append other row =>
      rw [kept, since]
      by_cases same : other = key
      · subst same
        cases left : room other with
        | zero =>
          rw [if_pos rfl, ih, Function.update_self]
          rfl
        | succ others =>
          have taken (pairs : List (Key × Row)) :
              ((other, row) :: pairs).filter (·.1 == other) =
                (other, row) :: pairs.filter (·.1 == other) :=
            List.filter_cons_of_pos (beq_self_eq_true other)
          rw [if_neg (Nat.succ_ne_zero others), if_pos rfl, taken, ih, Function.update_self]
          rfl
      · have others := ih (Function.update room other (room other - 1))
        rw [Function.update_of_ne (Ne.symm same)] at others
        have skipped (pairs : List (Key × Row)) :
            ((other, row) :: pairs).filter (·.1 == key) = pairs.filter (·.1 == key) :=
          List.filter_cons_of_neg (by simpa using same)
        rw [if_neg same]
        split
        · rw [others]
        · rw [skipped, others]

/-! ## What is kept altogether -/

/-- The pairs of a list, collected key by key. -/
theorem flatMap_filter_perm {keys : List Key} (distinct : keys.Nodup)
    (pairs : List (Key × Row)) :
    (keys.flatMap fun key => pairs.filter (·.1 == key)).Perm
      (pairs.filter fun pair => decide (pair.1 ∈ keys)) := by
  induction keys with
  | nil => simp
  | cons key keys ih =>
    obtain ⟨fresh, others⟩ := List.nodup_cons.mp distinct
    rw [List.flatMap_cons]
    have split := List.filter_append_perm (·.1 == key)
      (pairs.filter fun pair => decide (pair.1 ∈ key :: keys))
    have front : (pairs.filter fun pair => decide (pair.1 ∈ key :: keys)).filter (·.1 == key) =
        pairs.filter (·.1 == key) := by
      rw [List.filter_filter]
      refine List.filter_congr fun pair _ => ?_
      by_cases same : pair.1 = key
      · simp [same]
      · simp [same]
    have back : (pairs.filter fun pair => decide (pair.1 ∈ key :: keys)).filter
        (fun pair => !(pair.1 == key)) = pairs.filter fun pair => decide (pair.1 ∈ keys) := by
      rw [List.filter_filter]
      refine List.filter_congr fun pair _ => ?_
      by_cases same : pair.1 = key
      · simp [same, fresh]
      · simp [same]
    rw [front, back] at split
    exact ((ih others).append_left _).trans split

theorem contents_perm_kept (cap : Nat) (marks : List (Mark Key Row)) {keys : List Key}
    (distinct : keys.Nodup) (covers : ∀ key, contents cap marks key ≠ [] → key ∈ keys) :
    (keys.flatMap fun key => (contents cap marks key).map (key, ·)).Perm
      (kept (fun _ => cap) marks) := by
  have under (key : Key) : (contents cap marks key).map (key, ·) =
      ((kept (fun _ => cap) marks).filter (·.1 == key)).reverse := by
    rw [contents_eq, filter_kept, List.map_reverse]
  have collected : (keys.flatMap fun key => (contents cap marks key).map (key, ·)).Perm
      (keys.flatMap fun key => (kept (fun _ => cap) marks).filter (·.1 == key)) := by
    refine List.Perm.flatMap_left keys fun key _ => ?_
    rw [under]
    exact List.reverse_perm _
  have everything : (kept (fun _ => cap) marks).filter (fun pair => decide (pair.1 ∈ keys)) =
      kept (fun _ => cap) marks := by
    refine List.filter_eq_self.mpr fun pair member => decide_eq_true (covers pair.1 fun empty => ?_)
    have there : pair ∈ (kept (fun _ => cap) marks).filter (·.1 == pair.1) :=
      List.mem_filter.mpr ⟨member, beq_self_eq_true pair.1⟩
    rw [← List.mem_reverse, ← under, empty] at there
    exact nomatch there
  exact (collected.trans (flatMap_filter_perm distinct _)).trans (.of_eq everything)

/-! ## Nothing is lost -/

theorem kept_sublist (room : Key → Nat) (marks : List (Mark Key Row)) :
    (kept room marks).Sublist (appended marks) := by
  induction marks generalizing room with
  | nil => exact List.Sublist.slnil
  | cons mark older ih =>
    cases mark with
    | erase key => exact ih _
    | append key row =>
      rw [kept, appended]
      split
      · exact (ih _).cons _
      · exact (ih _).cons_cons _

theorem filter_kept_sublist {visible wanted : Key × Row → Bool}
    (sound : ∀ pair, visible pair = true → wanted pair = true) (room : Key → Nat)
    (marks : List (Mark Key Row)) :
    ((kept room marks).filter visible).Sublist ((appended marks).filter wanted) :=
  ((kept_sublist room marks).filter visible).trans (List.monotone_filter_right _ sound)

/-- There is room for a row exactly if it outlives the newer marks. -/
theorem room_pos_iff (newer : List (Mark Key Row)) :
    0 < newer.foldl roomAfter room key ↔ Outlives (room key) key newer := by
  induction newer generalizing room with
  | nil => exact ⟨fun left => ⟨nofun, left⟩, fun outlives => outlives.few⟩
  | cons mark newer ih =>
    rw [List.foldl_cons, ih]
    cases mark with
    | erase other =>
      by_cases same : other = key
      · subst same
        refine iff_of_false (fun outlives => ?_)
          fun outlives => outlives.unerased List.mem_cons_self
        have few := outlives.few
        rw [roomAfter, Function.update_self] at few
        exact Nat.not_lt_zero _ few
      · rw [roomAfter, Function.update_of_ne (Ne.symm same)]
        constructor
        · rintro ⟨unerased, few⟩
          refine ⟨fun member => ?_, few⟩
          rcases List.mem_cons.mp member with equal | later
          · exact same (Mark.erase.inj equal).symm
          · exact unerased later
        · rintro ⟨unerased, few⟩
          exact ⟨fun member => unerased (List.mem_cons_of_mem _ member), few⟩
    | append other row =>
      have unerased : .erase key ∉ Mark.append other row :: newer ↔ .erase key ∉ newer := by
        simp
      by_cases same : other = key
      · subst same
        have counted : (Mark.append other row :: newer).countP (·.appendsTo other) =
            newer.countP (·.appendsTo other) + 1 :=
          List.countP_cons_of_pos (beq_self_eq_true other)
        rw [roomAfter, Function.update_self]
        constructor
        · rintro ⟨absent, few⟩
          exact ⟨unerased.mpr absent, by omega⟩
        · rintro ⟨absent, few⟩
          exact ⟨unerased.mp absent, by omega⟩
      · have skipped : ¬(Mark.append other row).appendsTo key = true := by
          simpa [Mark.appendsTo] using same
        have counted : (Mark.append other row :: newer).countP (·.appendsTo key) =
            newer.countP (·.appendsTo key) := List.countP_cons_of_neg skipped
        rw [roomAfter, Function.update_of_ne (Ne.symm same)]
        constructor
        · rintro ⟨absent, few⟩
          exact ⟨unerased.mpr absent, by omega⟩
        · rintro ⟨absent, few⟩
          exact ⟨unerased.mp absent, by omega⟩

omit [DecidableEq Key] in
theorem forall_append_cons_iff {mark : Mark Key Row}
    {holds : List (Mark Key Row) → Key → Row → Prop} :
    (∀ newer key row older, mark :: marks = newer ++ .append key row :: older →
        holds newer key row) ↔
      (∀ key row, mark = .append key row → holds [] key row) ∧
        ∀ newer key row older, marks = newer ++ .append key row :: older →
          holds (mark :: newer) key row := by
  constructor
  · intro all
    refine ⟨fun key row same => all [] key row marks (by rw [same]; rfl), ?_⟩
    intro newer key row older split
    exact all (mark :: newer) key row older (by rw [split]; rfl)
  · rintro ⟨first, others⟩ newer key row older split
    cases newer with
    | nil => exact first key row (List.cons.inj split).1
    | cons newest newer =>
      obtain ⟨rfl, rest⟩ := List.cons.inj split
      exact others newer key row older rest

/-- What is visible of the kept rows is all that is wanted of the appended ones, exactly if every
row that is wanted is visible and outlives the newer marks. -/
theorem filter_kept_eq_iff {visible wanted : Key × Row → Bool}
    (sound : ∀ pair, visible pair = true → wanted pair = true) (room : Key → Nat)
    (marks : List (Mark Key Row)) :
    (kept room marks).filter visible = (appended marks).filter wanted ↔
      ∀ newer key row older, marks = newer ++ .append key row :: older →
        wanted (key, row) = true →
          Outlives (room key) key newer ∧ visible (key, row) = true := by
  simp only [← room_pos_iff]
  induction marks generalizing room with
  | nil => simp [kept, appended]
  | cons mark marks ih =>
    rw [forall_append_cons_iff]
    cases mark with
    | erase other =>
      rw [and_iff_right fun _ _ same => nomatch same]
      exact ih _
    | append other row =>
      have first : (∀ key next, Mark.append other row = .append key next →
          wanted (key, next) = true → 0 < room key ∧ visible (key, next) = true) ↔
          (wanted (other, row) = true → 0 < room other ∧ visible (other, row) = true) := by
        constructor
        · exact fun all => all other row rfl
        · rintro one key next same
          obtain ⟨rfl, rfl⟩ := Mark.append.inj same
          exact one
      have rest := ih (Function.update room other (room other - 1))
      have shorter := (filter_kept_sublist sound
        (Function.update room other (room other - 1)) marks).length_le
      refine Iff.trans ?_ (and_congr first.symm rest)
      rw [kept, appended]
      cases asked : wanted (other, row) with
      | false =>
        have hidden : ¬visible (other, row) = true := fun shown =>
          Bool.false_ne_true (asked.symm.trans (sound _ shown))
        rw [List.filter_cons_of_neg (by simp [asked]), and_iff_right (fun h => nomatch h)]
        split
        · rfl
        · rw [List.filter_cons_of_neg hidden]
      | true =>
        rw [List.filter_cons_of_pos asked, imp_iff_right (Eq.refl true)]
        split
        next full =>
          refine iff_of_false (fun same => ?_) fun both => ?_
          · have := congrArg List.length same
            rw [List.length_cons] at this
            omega
          · omega
        next some =>
          cases shown : visible (other, row) with
          | false =>
            rw [List.filter_cons_of_neg (by simp [shown])]
            refine iff_of_false (fun same => ?_) fun both => nomatch both.1.2
            have := congrArg List.length same
            rw [List.length_cons] at this
            omega
          | true =>
            rw [List.filter_cons_of_pos shown, List.cons_inj_right,
              and_iff_right ⟨Nat.pos_of_ne_zero some, rfl⟩]

end CappedLog
