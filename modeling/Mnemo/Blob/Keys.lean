import Mnemo.Blob.LocalStore

/-!
# Keys

Where the two files of a blob stand, and how keys are read back from paths.
-/

namespace Mnemo
namespace Blob

open FileTree

/-! ## Parts -/

theorem segments_ne_nil (chars : List Char) : segments chars ≠ [] := by
  cases chars with
  | nil => exact List.cons_ne_nil _ _
  | cons char chars =>
    rw [segments]
    split
    · exact List.cons_ne_nil _ _
    · split <;> exact List.cons_ne_nil _ _

theorem segments_append (chars suffix : List Char) (plain : '/' ∉ suffix) :
    ∃ before last, segments chars = before ++ [last] ∧
      segments (chars ++ suffix) = before ++ [last ++ suffix] := by
  have whole : ∀ suffix : List Char, '/' ∉ suffix → segments suffix = [suffix] := by
    intro suffix plain
    induction suffix with
    | nil => rfl
    | cons char rest ih =>
      obtain ⟨different, later⟩ := not_or.mp (List.mem_cons.not.mp plain)
      rw [segments, if_neg (Ne.symm different), ih later]
  induction chars with
  | nil => exact ⟨[], [], rfl, whole suffix plain⟩
  | cons char chars ih =>
    obtain ⟨before, last, split, appended⟩ := ih
    rw [List.cons_append, segments, segments, split, appended]
    by_cases slash : char = '/'
    · rw [if_pos slash, if_pos slash]
      exact ⟨[] :: before, last, rfl, rfl⟩
    · rw [if_neg slash, if_neg slash]
      cases before with
      | nil => exact ⟨[], char :: last, rfl, rfl⟩
      | cons first rest => exact ⟨(char :: first) :: rest, last, rfl, rfl⟩

theorem containsParent_cons (char : Char) (chars : List Char) :
    containsParent (char :: chars) =
      (decide (char = '.' ∧ chars.head? = some '.') || containsParent chars) := by
  rw [containsParent.eq_def]
  split
  · rename_i same
    obtain ⟨rfl, rfl⟩ := List.cons.inj same
    simp
  · rename_i other same
    obtain ⟨rfl, rfl⟩ := List.cons.inj same
    have apart : ¬ (char = '.' ∧ chars.head? = some '.') := by
      rintro ⟨rfl, head⟩
      obtain ⟨rest, rfl⟩ := List.head?_eq_some_iff.mp head
      exact other rest rfl rfl
    simp [apart]
  · rename_i impossible
    exact nomatch impossible

theorem containsParent_append {chars suffix : List Char} (first : containsParent chars = false)
    (second : containsParent suffix = false) (last : chars.getLast? ≠ some '.') :
    containsParent (chars ++ suffix) = false := by
  induction chars with
  | nil => exact second
  | cons char chars ih =>
    rw [containsParent_cons] at first
    simp only [Bool.or_eq_false_iff, decide_eq_false_iff_not] at first
    rw [List.cons_append, containsParent_cons]
    cases chars with
    | nil =>
      have plain : char ≠ '.' := by simpa using last
      simp [plain, second]
    | cons next chars =>
      have later := ih first.2 (by simpa using last)
      rw [later, Bool.or_false]
      simpa using first.1

/-! ## Where the files of a blob stand -/

/-- A key whose two files have paths of their own: it is accepted, its last part names something, and
it does not end with a dot. -/
structure Tame (key : String) : Prop where
  accepted : traverses key = false
  named : meansDirectory key = false
  undotted : key.toList.getLast? ≠ some '.'

theorem Tame.components_eq {key : String} (tame : Tame key) :
    ∃ directory name, name ≠ "" ∧ components key = directory ++ [name] ∧
      components (metaKey key) = directory ++ [name ++ ".meta"] ∧
      meansDirectory (metaKey key) = false := by
  obtain ⟨before, last, split, appended⟩ :=
    segments_append key.toList ".meta".toList (by decide)
  have named := tame.named
  unfold meansDirectory at named
  rw [split] at named
  have component : isComponent last = true := by simpa using named
  have nonempty : last ≠ [] := by
    simp only [isComponent, decide_eq_true_eq] at component
    exact component.1
  have longer : isComponent (last ++ ".meta".toList) = true := by
    have length := List.length_pos_of_ne_nil nonempty
    simp only [isComponent, decide_eq_true_eq]
    constructor
    · simp [nonempty]
    · intro dot
      have count := congrArg List.length dot
      simp at count
  refine ⟨(before.filter isComponent).map String.ofList, String.ofList last, ?_, ?_, ?_, ?_⟩
  · intro empty
    apply nonempty
    have chars := congrArg String.toList empty
    simpa using chars
  · unfold components
    rw [split, List.filter_append, List.map_append]
    simp [component]
  · unfold components metaKey
    rw [String.toList_append, appended, List.filter_append, List.map_append]
    simp only [List.filter_cons, longer, if_true, List.filter_nil, List.map_cons, List.map_nil]
    rw [String.ofList_append]
    rfl
  · unfold meansDirectory metaKey
    rw [String.toList_append, appended, List.getLast?_concat, Option.all_some, longer]
    rfl

theorem Tame.metaKey_accepted {key : String} (tame : Tame key) :
    traverses (metaKey key) = false := by
  have accepted := tame.accepted
  unfold traverses at accepted ⊢
  simp only [Bool.or_eq_false_iff, metaKey, String.toList_append] at accepted ⊢
  obtain ⟨⟨apart, slash⟩, backslash⟩ := accepted
  refine ⟨⟨containsParent_append apart (by decide) tame.undotted, ?_⟩, ?_⟩
  · cases chars : key.toList with
    | nil => decide
    | cons char rest =>
      rw [chars] at slash
      exact slash
  · cases chars : key.toList with
    | nil => decide
    | cons char rest =>
      rw [chars] at backslash
      exact backslash

/-! ## Keys from paths -/

theorem not_mem_segments {chars segment : List Char} (member : segment ∈ segments chars) :
    '/' ∉ segment := by
  induction chars generalizing segment with
  | nil =>
    rw [segments, List.mem_singleton] at member
    rw [member]
    exact List.not_mem_nil
  | cons char chars ih =>
    rw [segments] at member
    split at member
    · rcases List.mem_cons.mp member with rfl | rest
      · exact List.not_mem_nil
      · exact ih rest
    · rename_i plain
      split at member
      · rename_i empty
        exact absurd empty (segments_ne_nil chars)
      · rename_i first rest split
        rcases List.mem_cons.mp member with rfl | other
        · have old : '/' ∉ first := ih (split ▸ List.mem_cons_self)
          exact List.not_mem_cons_of_ne_of_not_mem (Ne.symm plain) old
        · exact ih (split ▸ List.mem_cons_of_mem _ other)

/-- The names on the way of a key are not empty, are no dots, and have no slashes. -/
structure IsName (name : String) : Prop where
  nonempty : name.toList ≠ []
  no_dot : name.toList ≠ ['.']
  no_slash : '/' ∉ name.toList

theorem isName_of_mem_components {key name : String} (member : name ∈ components key) :
    IsName name := by
  obtain ⟨segment, kept, rfl⟩ := List.mem_map.mp member
  obtain ⟨among, component⟩ := List.mem_filter.mp kept
  simp only [isComponent, decide_eq_true_eq] at component
  refine ⟨?_, ?_, ?_⟩ <;> rw [String.toList_ofList]
  · exact component.1
  · exact component.2
  · exact not_mem_segments among

theorem joinNames_cons (name : String) {names : Path} (nonempty : names ≠ []) :
    joinNames (name :: names) = name.toList ++ '/' :: joinNames names := by
  cases names with
  | nil => exact absurd rfl nonempty
  | cons other names => rfl

theorem joinNames_append {first second : Path} (left : first ≠ []) (right : second ≠ []) :
    joinNames (first ++ second) = joinNames first ++ '/' :: joinNames second := by
  induction first with
  | nil => exact absurd rfl left
  | cons name names ih =>
    by_cases last : names = []
    · subst names
      exact joinNames_cons name right
    · have longer : names ++ second ≠ [] := by simp [last]
      rw [List.cons_append, joinNames_cons name longer, joinNames_cons name last, ih last]
      simp

theorem joinNames_ne_nil {names : Path} (nonempty : names ≠ [])
    (all : ∀ name ∈ names, IsName name) : joinNames names ≠ [] := by
  obtain ⟨name, others, rfl⟩ := List.exists_cons_of_ne_nil nonempty
  have named := (all name List.mem_cons_self).nonempty
  by_cases last : others = []
  · subst others
    exact named
  · rw [joinNames_cons name last]
    simp

theorem trimLeft_joinNames {names : Path} (nonempty : names ≠ [])
    (all : ∀ name ∈ names, IsName name) (rest : List Char) (after : rest = [] ∨ ∃ more, rest = '/' :: more) :
    trimLeft (joinNames names ++ rest) = joinNames names ++ rest := by
  obtain ⟨name, others, rfl⟩ := List.exists_cons_of_ne_nil nonempty
  have named := all name List.mem_cons_self
  obtain ⟨tail, same, shape⟩ : ∃ tail, joinNames (name :: others) ++ rest = name.toList ++ tail ∧
      (tail = [] ∨ ∃ more, tail = '/' :: more) := by
    by_cases last : others = []
    · subst others
      exact ⟨rest, rfl, after⟩
    · refine ⟨'/' :: joinNames others ++ rest, ?_, .inr ⟨_, rfl⟩⟩
      rw [joinNames_cons name last, List.append_assoc]
  rw [same]
  obtain ⟨char, chars, spelled⟩ := List.exists_cons_of_ne_nil named.nonempty
  have no_slash := named.no_slash
  have no_dot := named.no_dot
  rw [spelled] at no_slash no_dot ⊢
  obtain ⟨first, later⟩ := not_or.mp (List.mem_cons.not.mp no_slash)
  rw [trimLeft.eq_def]
  split
  · rename_i impossible
    exact absurd (List.cons.inj impossible).1 (Ne.symm first)
  · rename_i more impossible
    obtain ⟨dot, slash⟩ := List.cons.inj impossible
    cases chars with
    | nil => exact absurd (by rw [dot]) no_dot
    | cons next chars =>
      obtain ⟨next_slash, _⟩ := List.cons.inj slash
      exact absurd (next_slash ▸ List.mem_cons_self) later
  · rename_i impossible
    obtain ⟨dot, nothing⟩ := List.cons.inj impossible
    obtain ⟨empty, _⟩ := List.append_eq_nil_iff.mp nothing
    rw [dot, empty] at no_dot
    exact absurd rfl no_dot
  · rfl

theorem getLast?_joinNames {names : Path} (nonempty : names ≠ [])
    (all : ∀ name ∈ names, IsName name) : (joinNames names).getLast? ≠ some '/' := by
  induction names with
  | nil => exact absurd rfl nonempty
  | cons name names ih =>
    have rest : ∀ other ∈ names, IsName other := fun other member =>
      all other (List.mem_cons_of_mem _ member)
    by_cases only : names = []
    · subst names
      intro last
      exact (all name List.mem_cons_self).no_slash (List.mem_of_getLast? last)
    · rw [joinNames_cons name only, List.getLast?_append_of_ne_nil _ (List.cons_ne_nil _ _),
        List.getLast?_cons_of_ne_nil (joinNames_ne_nil only rest)]
      exact ih only rest

/-- A prefix that is written as the path of a directory, with or without a slash at its end. -/
def IsPlain (directory : String) : Prop :=
  directory = "" ∨ directory.toList = joinNames (components directory) ∨
    directory.toList = joinNames (components directory) ++ ['/'] ∧ components directory ≠ []

theorem keyUnder_eq {directory : String} (plain : IsPlain directory) {names : Path}
    (nonempty : names ≠ []) :
    keyUnder directory names = String.ofList (joinNames (components directory ++ names)) := by
  have all : ∀ name ∈ components directory, IsName name := fun _ => isName_of_mem_components
  unfold keyUnder
  by_cases top : components directory = []
  · have empty : directory = "" := by
      rcases plain with empty | whole | ⟨_, some_names⟩
      · exact empty
      · rw [top] at whole
        exact String.toList_inj.mp whole
      · exact absurd top some_names
    subst directory
    rfl
  · rw [joinNames_append top nonempty]
    have start := joinNames_ne_nil top all
    rcases plain with empty | whole | ⟨whole, _⟩
    · subst directory
      exact absurd rfl top
    · have trimmed := trimLeft_joinNames top all [] (.inl rfl)
      rw [List.append_nil] at trimmed
      simp only [whole, trimmed, start, if_false, getLast?_joinNames top all]
    · have trimmed := trimLeft_joinNames top all ['/'] (.inr ⟨[], rfl⟩)
      simp only [whole, trimmed]
      simp

theorem prefix_joinNames {directory : String} (plain : IsPlain directory) {names : Path}
    (nonempty : names ≠ []) :
    directory.toList <+: joinNames (components directory ++ names) := by
  by_cases top : components directory = []
  · rcases plain with empty | whole | ⟨_, some_names⟩
    · subst directory
      exact List.nil_prefix
    · rw [whole, top]
      exact List.nil_prefix
    · exact absurd top some_names
  · rw [joinNames_append top nonempty]
    rcases plain with empty | whole | ⟨whole, _⟩
    · subst directory
      exact absurd rfl top
    · conv_lhs => rw [whole]
      exact List.prefix_append _ _
    · conv_lhs => rw [whole]
      exact ⟨joinNames names, by simp⟩

end Blob
end Mnemo
