import Mnemo.Blob.Keys
import Mnemo.Lib.StateMachine

/-!
# The file system as a map of blobs

Under keys whose files do not get in each other's way, the store is a map from keys to blobs.
-/

namespace Mnemo
namespace Blob

open FileTree

/-- The bytes and the content type of a blob. -/
structure StoredBlob where
  data : ByteArray
  contentType : String

/-- The blobs that are stored. -/
abbrev Blobs := String → Option StoredBlob

/-- Keys whose files have paths of their own: no key leads to another, and the content type of none
stands on the way to another. -/
structure Compatible (keys : Set String) : Prop where
  tame : ∀ key ∈ keys, Tame key
  apart : ∀ key ∈ keys, ∀ other ∈ keys, components key <+: components other → key = other
  clear : ∀ key ∈ keys, ∀ other ∈ keys, ¬ components (metaKey key) <+: components other

/-- Where the files of some keys stand. -/
def slots (base : Path) (keys : Set String) : Set Path :=
  {path | ∃ key ∈ keys, path = base ++ components key ∨ path = base ++ components (metaKey key)}

namespace Compatible

variable {keys : Set String} {base : Path} {key other : String}

theorem mem_slots (member : key ∈ keys) : base ++ components key ∈ slots base keys :=
  ⟨key, member, .inl rfl⟩

theorem meta_mem_slots (member : key ∈ keys) :
    base ++ components (metaKey key) ∈ slots base keys :=
  ⟨key, member, .inr rfl⟩

theorem eq_of_meta_prefix (compatible : Compatible keys) (member : key ∈ keys)
    (among : other ∈ keys) (reaches : components (metaKey key) <+: components (metaKey other)) :
    key = other := by
  obtain ⟨directory, name, _, own, beside, _⟩ := (compatible.tame key member).components_eq
  obtain ⟨place, last, _, others, besides, _⟩ := (compatible.tame other among).components_eq
  rw [besides] at reaches
  rcases List.prefix_concat_iff.mp reaches with whole | within
  · rw [beside] at whole
    obtain ⟨same, name_same⟩ := List.append_inj' whole rfl
    have equal : name = last := by
      have chars := congrArg String.toList (List.cons.inj name_same).1
      rw [String.toList_append, String.toList_append] at chars
      exact String.toList_inj.mp (List.append_cancel_right chars)
    apply compatible.apart key member other among
    rw [own, others, same, equal]
  · exfalso
    apply compatible.clear key member other among
    rw [others]
    exact within.trans (List.prefix_append place [last])

theorem not_prefix_meta (compatible : Compatible keys) (member : key ∈ keys)
    (among : other ∈ keys) : ¬ components key <+: components (metaKey other) := by
  intro reaches
  obtain ⟨place, last, _, others, besides, _⟩ := (compatible.tame other among).components_eq
  obtain ⟨directory, name, _, own, _, _⟩ := (compatible.tame key member).components_eq
  rw [besides] at reaches
  rcases List.prefix_concat_iff.mp reaches with whole | within
  · apply compatible.clear other among key member
    rw [besides, whole]
  · have along : components key <+: components other := by
      rw [others]
      exact within.trans (List.prefix_append place [last])
    obtain rfl := compatible.apart key member other among along
    rw [others] at within
    have long := within.length_le
    rw [List.length_append, List.length_singleton] at long
    omega

theorem places (compatible : Compatible keys) : Tree.Places base (slots base keys) where
  under := by
    rintro _ ⟨key, member, rfl | rfl⟩
    · obtain ⟨directory, name, _, own, _⟩ := (compatible.tame key member).components_eq
      refine ⟨List.prefix_append base _, ?_⟩
      rw [own]
      simp
    · obtain ⟨directory, name, _, _, beside, _⟩ := (compatible.tame key member).components_eq
      refine ⟨List.prefix_append base _, ?_⟩
      rw [beside]
      simp
  apart := by
    rintro _ ⟨key, member, rfl | rfl⟩ _ ⟨other, among, rfl | rfl⟩ reaches
    · rw [compatible.apart key member other among ((List.prefix_append_right_inj base).mp reaches)]
    · exact absurd ((List.prefix_append_right_inj base).mp reaches)
        (compatible.not_prefix_meta member among)
    · exact absurd ((List.prefix_append_right_inj base).mp reaches)
        (compatible.clear key member other among)
    · rw [compatible.eq_of_meta_prefix member among ((List.prefix_append_right_inj base).mp reaches)]

theorem path_inj (base : Path) (compatible : Compatible keys) (member : key ∈ keys) (among : other ∈ keys) :
    base ++ components key = base ++ components other ↔ key = other := by
  constructor
  · intro same
    have equal := List.append_cancel_left same
    apply compatible.apart key member other among
    rw [equal]
  · rintro rfl
    rfl

theorem meta_inj (base : Path) (compatible : Compatible keys) (member : key ∈ keys) (among : other ∈ keys) :
    base ++ components (metaKey key) = base ++ components (metaKey other) ↔ key = other := by
  constructor
  · intro same
    have equal := List.append_cancel_left same
    apply compatible.eq_of_meta_prefix member among
    rw [equal]
  · rintro rfl
    rfl

theorem path_ne_meta (base : Path) (compatible : Compatible keys) (member : key ∈ keys) (among : other ∈ keys) :
    base ++ components key ≠ base ++ components (metaKey other) := by
  intro same
  apply compatible.not_prefix_meta member among
  rw [List.append_cancel_left same]

end Compatible

/-! ## The relation -/

/-- The files are those of the blobs of some keys; files elsewhere are as they were at first. -/
def Represents (store : LocalBlobStore) (keys : Set String) (start : Files) (blobs : Blobs)
    (files : Files) : Prop :=
  ∃ contents, Tree.Holds start store.basePath (slots store.basePath keys) contents files ∧
    ∀ key ∈ keys,
      contents (store.basePath ++ components key) = (blobs key).map StoredBlob.data ∧
      contents (store.basePath ++ components (metaKey key)) =
        (blobs key).map fun blob => blob.contentType.toUTF8

/-- What is told about a blob under a key. -/
def StoredBlob.metadata (blob : StoredBlob) (key : String) : BlobMetadata :=
  { key, sizeBytes := blob.data.size, contentType := blob.contentType, etag := none }

section Operations

variable {store : LocalBlobStore} {keys : Set String} {start files : Files} {blobs : Blobs}
variable {key : String} {contents : Path → Option ByteArray}

/-- The path of a blob. -/
def LocalBlobStore.route (store : LocalBlobStore) (key : String) : Route :=
  { path := store.basePath ++ components key, slash := false }

theorem fullPath_eq (files : Files) (accepted : traverses key = false)
    (named : meansDirectory key = false) :
    store.fullPath key files = .ok (store.route key) := by
  unfold LocalBlobStore.fullPath LocalBlobStore.route
  rw [accepted, named]
  have inside : store.basePath.isPrefixOf (store.basePath ++ components key) = true :=
    List.isPrefixOf_iff_prefix.mpr (List.prefix_append _ _)
  simp only [Bool.false_eq_true, if_false, inside, if_true]
  split <;> rfl

theorem Tame.fullPath (tame : Tame key) (files : Files) :
    store.fullPath key files = .ok (store.route key) :=
  fullPath_eq files tame.accepted tame.named

theorem Tame.fullPath_meta (tame : Tame key) (files : Files) :
    store.fullPath (metaKey key) files = .ok (store.route (metaKey key)) := by
  obtain ⟨_, _, _, _, _, named⟩ := tame.components_eq
  exact fullPath_eq files tame.metaKey_accepted named

theorem fromUTF8?_toUTF8 (text : String) : String.fromUTF8? text.toUTF8 = some text := by
  have valid : text.toUTF8.IsValidUTF8 := text.isValidUTF8
  unfold String.fromUTF8?
  rw [dif_pos valid]
  rfl

theorem readContentType_eq (compatible : Compatible keys) (member : key ∈ keys)
    (holds : Tree.Holds start store.basePath (slots store.basePath keys) contents files)
    {blob : StoredBlob} (described : contents (store.basePath ++ components (metaKey key)) =
      some blob.contentType.toUTF8) :
    store.readContentType key files = .ok blob.contentType := by
  unfold LocalBlobStore.readContentType
  have read : files.read (store.route (metaKey key)) = _ :=
    holds.read_eq compatible.places (Compatible.meta_mem_slots member)
  rw [(compatible.tame key member).fullPath_meta]
  simp only [read, described, fromUTF8?_toUTF8, Option.getD_some]

theorem get_eq (compatible : Compatible keys) (member : key ∈ keys)
    (represents : Represents store keys start blobs files) :
    store.get key files =
      match blobs key with
      | some blob => .ok (blob.data, blob.metadata key)
      | none => .error (.notFound "Blob" key) := by
  obtain ⟨contents, holds, agree⟩ := represents
  obtain ⟨data, described⟩ := agree key member
  have read : files.read (store.route key) = _ :=
    holds.read_eq compatible.places (Compatible.mem_slots member)
  unfold LocalBlobStore.get
  rw [(compatible.tame key member).fullPath]
  simp only [read, data]
  cases given : blobs key with
  | none => simp [LocalBlobStore.unreachable]
  | some blob =>
    rw [given] at described
    simp [readContentType_eq compatible member holds described, StoredBlob.metadata]

theorem head_eq (compatible : Compatible keys) (member : key ∈ keys)
    (represents : Represents store keys start blobs files) :
    store.head key files =
      match blobs key with
      | some blob => .ok (blob.metadata key)
      | none => .error (.notFound "Blob" key) := by
  obtain ⟨contents, holds, agree⟩ := represents
  obtain ⟨data, described⟩ := agree key member
  have found : files.find (store.route key) = _ :=
    holds.find_eq compatible.places (Compatible.mem_slots member)
  unfold LocalBlobStore.head
  rw [(compatible.tame key member).fullPath]
  simp only [found, data]
  cases given : blobs key with
  | none => simp [LocalBlobStore.unreachable]
  | some blob =>
    rw [given] at described
    simp [readContentType_eq compatible member holds described, StoredBlob.metadata,
      LocalBlobStore.length]

theorem Represents.of_changed (compatible : Compatible keys) (member : key ∈ keys)
    (agree : ∀ other ∈ keys,
      contents (store.basePath ++ components other) = (blobs other).map StoredBlob.data ∧
      contents (store.basePath ++ components (metaKey other)) =
        (blobs other).map fun blob => blob.contentType.toUTF8)
    (value : Option StoredBlob)
    (holds : Tree.Holds start store.basePath (slots store.basePath keys)
      (Function.update (Function.update contents (store.basePath ++ components key)
          (value.map StoredBlob.data))
        (store.basePath ++ components (metaKey key))
        (value.map fun blob => blob.contentType.toUTF8)) files) :
    Represents store keys start (Function.update blobs key value) files := by
  refine ⟨_, holds, fun other among => ?_⟩
  by_cases same : other = key
  · subst other
    have apart := compatible.path_ne_meta store.basePath member member
    rw [Function.update_of_ne apart, Function.update_self, Function.update_self,
      Function.update_self]
    exact ⟨rfl, rfl⟩
  · have first := mt (compatible.path_inj store.basePath among member).mp same
    have second := mt (compatible.meta_inj store.basePath among member).mp same
    have third := compatible.path_ne_meta store.basePath among member
    have fourth := (compatible.path_ne_meta store.basePath member among).symm
    rw [Function.update_of_ne third, Function.update_of_ne first, Function.update_of_ne second,
      Function.update_of_ne fourth, Function.update_of_ne same]
    exact agree other among

theorem put_represents (compatible : Compatible keys) (member : key ∈ keys)
    (represents : Represents store keys start blobs files) (blob : StoredBlob) :
    (store.put key blob.data blob.contentType files).1 = .ok (blob.metadata key) ∧
      Represents store keys start (Function.update blobs key (some blob))
        (store.put key blob.data blob.contentType files).2 := by
  obtain ⟨contents, holds, agree⟩ := represents
  have tame := compatible.tame key member
  have slot : store.basePath ++ components key ∈ slots store.basePath keys :=
    Compatible.mem_slots member
  have meta_slot : store.basePath ++ components (metaKey key) ∈ slots store.basePath keys :=
    Compatible.meta_mem_slots member
  obtain ⟨made, created, held, parent⟩ := holds.createDirAll compatible.places slot
  obtain ⟨written, wrote, stored, _⟩ := held.write compatible.places slot parent blob.data
  obtain ⟨remade, recreated, kept, meta_parent⟩ := stored.createDirAll compatible.places meta_slot
  obtain ⟨final, finished, described, _⟩ :=
    kept.write compatible.places meta_slot meta_parent blob.contentType.toUTF8
  have first : store.ensureParentDir (store.route key) files = .ok made := by
    unfold LocalBlobStore.ensureParentDir LocalBlobStore.route
    rw [created]
  have second : made.write blob.data (store.route key) = .ok written := wrote
  have third : store.ensureParentDir (store.route (metaKey key)) written = .ok remade := by
    unfold LocalBlobStore.ensureParentDir LocalBlobStore.route
    rw [recreated]
  have fourth : remade.write blob.contentType.toUTF8 (store.route (metaKey key)) = .ok final :=
    finished
  have result : store.put key blob.data blob.contentType files = (.ok (blob.metadata key), final) := by
    unfold LocalBlobStore.put LocalBlobStore.writeContentType
    simp only [tame.fullPath, tame.fullPath_meta, first, second, third, fourth]
    rfl
  rw [result]
  exact ⟨rfl, .of_changed compatible member agree (some blob) described⟩

/-- Deleting a blob removes it from the map, and fails if there is none. -/
theorem delete_represents (compatible : Compatible keys) (member : key ∈ keys)
    (represents : Represents store keys start blobs files) :
    (store.delete key files).1 = (match blobs key with
      | some _ => .ok ()
      | none => .error (.notFound "Blob" key)) ∧
      Represents store keys start (Function.update blobs key none) (store.delete key files).2 := by
  have same := represents
  obtain ⟨contents, holds, agree⟩ := represents
  have tame := compatible.tame key member
  have slot : store.basePath ++ components key ∈ slots store.basePath keys :=
    Compatible.mem_slots member
  have meta_slot : store.basePath ++ components (metaKey key) ∈ slots store.basePath keys :=
    Compatible.meta_mem_slots member
  obtain ⟨data, described⟩ := agree key member
  cases given : blobs key with
  | none =>
    rw [given] at data
    have absent : files.removeFile (store.route key) = .error .notFound := by
      have found : files.find (store.route key) = _ := holds.find_eq compatible.places slot
      unfold Tree.removeFile
      simp only [found, data, Option.map_none]
    have result : store.delete key files = (.error (.notFound "Blob" key), files) := by
      unfold LocalBlobStore.delete
      simp only [tame.fullPath, tame.fullPath_meta, absent]
      simp [LocalBlobStore.unreachable]
    rw [result, Function.update_eq_self_iff.mpr given.symm]
    exact ⟨rfl, same⟩
  | some blob =>
    rw [given] at data described
    obtain ⟨removed, first, held⟩ := holds.removeFile compatible.places slot data
    have beside : Function.update contents (store.basePath ++ components key) none
        (store.basePath ++ components (metaKey key)) = some blob.contentType.toUTF8 := by
      rw [Function.update_of_ne (compatible.path_ne_meta store.basePath member member).symm]
      exact described
    obtain ⟨final, second, left⟩ := held.removeFile compatible.places meta_slot beside
    have one : files.removeFile (store.route key) = .ok removed := first
    have two : removed.removeFile (store.route (metaKey key)) = .ok final := second
    have result : store.delete key files = (.ok (), final) := by
      unfold LocalBlobStore.delete
      simp only [tame.fullPath, tame.fullPath_meta, one, two]
    rw [result]
    exact ⟨rfl, .of_changed compatible member agree none left⟩

/-- Copying a blob to another key puts it into the map there, and fails if there is none. -/
theorem copy_represents (compatible : Compatible keys) (member : key ∈ keys) {target : String}
    (among : target ∈ keys) (different : key ≠ target)
    (represents : Represents store keys start blobs files) :
    (store.copy key target files).1 = (match blobs key with
      | some blob => .ok (blob.metadata target)
      | none => .error (.notFound "Blob" key)) ∧
      Represents store keys start
        (match blobs key with
          | some blob => Function.update blobs target (some blob)
          | none => blobs) (store.copy key target files).2 := by
  obtain ⟨contents, holds, agree⟩ := represents
  have tame := compatible.tame key member
  have target_tame := compatible.tame target among
  have slot : store.basePath ++ components key ∈ slots store.basePath keys :=
    Compatible.mem_slots member
  have meta_slot : store.basePath ++ components (metaKey key) ∈ slots store.basePath keys :=
    Compatible.meta_mem_slots member
  have target_slot : store.basePath ++ components target ∈ slots store.basePath keys :=
    Compatible.mem_slots among
  have target_meta : store.basePath ++ components (metaKey target) ∈ slots store.basePath keys :=
    Compatible.meta_mem_slots among
  obtain ⟨data, described⟩ := agree key member
  obtain ⟨made, created, held, parent⟩ := holds.createDirAll compatible.places target_slot
  have ensured : store.ensureParentDir (store.route target) files = .ok made := by
    unfold LocalBlobStore.ensureParentDir LocalBlobStore.route
    rw [created]
  cases given : blobs key with
  | none =>
    rw [given] at data
    have absent : made.copy .empty (store.route key) (store.route target) = .error .notFound := by
      have found : made.find (store.route key) = _ := held.find_eq compatible.places slot
      unfold Tree.copy
      simp only [found, data, Option.map_none]
    have result : store.copy key target files = (.error (.notFound "Blob" key), made) := by
      unfold LocalBlobStore.copy
      simp only [tame.fullPath, target_tame.fullPath, ensured, absent]
      simp [LocalBlobStore.unreachable]
    rw [result]
    exact ⟨rfl, contents, held, agree⟩
  | some blob =>
    rw [given] at data described
    have apart : store.basePath ++ components key ≠ store.basePath ++ components target :=
      mt (compatible.path_inj store.basePath member among).mp different
    have meta_apart : store.basePath ++ components (metaKey key) ≠
        store.basePath ++ components (metaKey target) :=
      mt (compatible.meta_inj store.basePath member among).mp different
    obtain ⟨copied, first, moved, directories⟩ :=
      held.copy compatible.places slot data target_slot apart parent
    have beside : Function.update contents (store.basePath ++ components target)
        (some blob.data) (store.basePath ++ components (metaKey key)) =
          some blob.contentType.toUTF8 := by
      rw [Function.update_of_ne (compatible.path_ne_meta store.basePath among member).symm]
      exact described
    have meta_parent : copied.lookup (store.basePath ++ components (metaKey target)).dropLast =
        some .directory := by
      obtain ⟨directory, name, _, own, next, _⟩ := target_tame.components_eq
      apply directories
      rw [own, ← List.append_assoc, List.dropLast_concat] at parent
      rw [next, ← List.append_assoc, List.dropLast_concat]
      exact parent
    obtain ⟨final, second, finished, _⟩ :=
      moved.copy compatible.places meta_slot beside target_meta meta_apart meta_parent
    have one : made.copy .empty (store.route key) (store.route target) = .ok copied := first
    have two : copied.copy .empty (store.route (metaKey key)) (store.route (metaKey target)) =
        .ok final := second
    have represents : Represents store keys start (Function.update blobs target (some blob))
        final := .of_changed compatible among agree (some blob) finished
    have result : store.copy key target files = (store.head target final, final) := by
      unfold LocalBlobStore.copy
      simp only [tame.fullPath, target_tame.fullPath, ensured, one, tame.fullPath_meta,
        target_tame.fullPath_meta, two]
    rw [result, head_eq compatible among represents, Function.update_self]
    exact ⟨rfl, represents⟩

end Operations

/-! ## Listings -/

section Listing

variable {store : LocalBlobStore} {keys : Set String} {start files : Files} {blobs : Blobs}
variable {directory key : String} {stored : List String}

/-- A prefix that is a directory as far as the stored keys go: it is written plainly, stored keys
that start with it stand under it, and those under it are written plainly and have no name with
the extension of content types after it. -/
structure Listable (directory : String) (stored : List String) : Prop where
  accepted : traverses directory = false
  plain : IsPlain directory
  under : ∀ key ∈ stored, directory.toList <+: key.toList →
    components directory <+: components key ∧ components directory ≠ components key
  keys_plain : ∀ key ∈ stored, components directory <+: components key →
    key.toList = joinNames (components key)
  shown : ∀ key ∈ stored, ∀ between, components directory <+: between →
    components directory ≠ between → between <+: components key →
      between.getLast?.any hasMetaExtension = false

/-- The stored keys that start with a prefix. -/
def startingWith (directory : String) (stored : List String) : List String :=
  stored.filter fun key => directory.toList.isPrefixOf key.toList

theorem hasMetaExtension_append {name : String} (nonempty : name ≠ "") :
    hasMetaExtension (name ++ ".meta") = true := by
  unfold hasMetaExtension
  rw [decide_eq_true_eq, String.toList_append]
  refine ⟨List.suffix_append _ _, fun same => nonempty ?_⟩
  apply String.toList_inj.mp
  simpa using same

theorem Listable.startsWith (listable : Listable directory stored) (member : key ∈ stored)
    (reaches : components directory <+: components key)
    (proper : components directory ≠ components key) :
    directory.toList <+: key.toList := by
  obtain ⟨names, split⟩ := reaches
  have nonempty : names ≠ [] := by
    rintro rfl
    exact proper ((List.append_nil _).symm.trans split)
  rw [listable.keys_plain key member ⟨names, split⟩, ← split]
  exact prefix_joinNames listable.plain nonempty

theorem describe_eq (compatible : Compatible keys) (represents : Represents store keys start blobs files)
    (listable : Listable directory stored) (member : key ∈ stored) (among : key ∈ keys)
    {blob : StoredBlob} (given : blobs key = some blob)
    (starts : directory.toList <+: key.toList) :
    store.describe directory (store.basePath ++ components directory)
      (store.basePath ++ components key) files = blob.metadata key := by
  obtain ⟨⟨names, split⟩, proper⟩ := listable.under key member starts
  have nonempty : names ≠ [] := by
    rintro rfl
    exact proper ((List.append_nil _).symm.trans split)
  have rest : (store.basePath ++ components key).drop
      (store.basePath ++ components directory).length = names := by
    rw [← split, ← List.append_assoc, List.drop_left]
  have text : keyUnder directory names = key := by
    rw [keyUnder_eq listable.plain nonempty, split]
    apply String.toList_inj.mp
    rw [String.toList_ofList]
    exact (listable.keys_plain key member ⟨names, split⟩).symm
  obtain ⟨contents, holds, agree⟩ := represents
  obtain ⟨data, described⟩ := agree key among
  rw [given] at data described
  have found : files.lookup (store.basePath ++ components key) = some (.file blob.data) := by
    rw [holds.stored _ (Compatible.mem_slots among), data]
    rfl
  unfold LocalBlobStore.describe
  rw [rest, text, found]
  simp only [readContentType_eq compatible among holds described]
  rfl

/-- The files under a plain prefix that a listing shows are those of the stored keys that start with
the prefix. -/
theorem visible_iff (compatible : Compatible keys) (represents : Represents store keys start blobs files)
    (listed : ∀ key, key ∈ stored ↔ key ∈ keys ∧ (blobs key).isSome)
    (listable : Listable directory stored) (path : Path) :
    path ∈ (startingWith directory stored).map (fun key => store.basePath ++ components key) ↔
      Tree.Visible files store.passesOver (store.basePath ++ components directory) path := by
  obtain ⟨contents, holds, agree⟩ := represents
  constructor
  · intro member
    obtain ⟨key, starting, rfl⟩ := List.mem_map.mp member
    obtain ⟨kept, starts⟩ := List.mem_filter.mp starting
    obtain ⟨among, present⟩ := (listed key).mp kept
    obtain ⟨blob, given⟩ := Option.isSome_iff_exists.mp present
    obtain ⟨under, proper⟩ := listable.under key kept (List.isPrefixOf_iff_prefix.mp starts)
    refine ⟨?_, (List.prefix_append_right_inj _).mpr under, ?_, ?_⟩
    · refine Tree.isFile_iff.mpr ⟨blob.data, ?_⟩
      rw [holds.stored _ (Compatible.mem_slots among), (agree key among).1, given]
      rfl
    · simpa using proper
    · rintro _ ⟨names, rfl⟩ different reaches
      rw [List.append_assoc] at reaches different ⊢
      have shown := listable.shown key kept (components directory ++ names)
        (List.prefix_append _ _) (by simpa using different)
        ((List.prefix_append_right_inj _).mp reaches)
      have nonempty : names ≠ [] := by
        rintro rfl
        simp at different
      have last : (store.basePath ++ (components directory ++ names)).getLast? =
          (components directory ++ names).getLast? := by
        rw [List.getLast?_append_of_ne_nil]
        simp [nonempty]
      have inside : store.basePath.isPrefixOf
          (store.basePath ++ (components directory ++ names)) = true :=
        List.isPrefixOf_iff_prefix.mpr (List.prefix_append _ _)
      unfold LocalBlobStore.passesOver
      rw [last, shown, inside]
      rfl
  · intro visible
    have below : store.basePath <+: path := (List.prefix_append _ _).trans visible.under
    obtain ⟨key, among, rfl | rfl⟩ := holds.only path below visible.file
    · have under := (List.prefix_append_right_inj _).mp visible.under
      have proper : components directory ≠ components key := by
        intro same
        apply visible.proper
        rw [same]
      obtain ⟨content, found⟩ := Tree.isFile_iff.mp visible.file
      have present : (blobs key).isSome := by
        rw [holds.stored _ (Compatible.mem_slots among), (agree key among).1] at found
        cases given : blobs key with
        | none =>
          rw [given] at found
          exact nomatch found
        | some blob => rfl
      have kept := (listed key).mpr ⟨among, present⟩
      refine List.mem_map.mpr ⟨key, List.mem_filter.mpr ⟨kept, ?_⟩, rfl⟩
      exact List.isPrefixOf_iff_prefix.mpr (listable.startsWith kept under proper)
    · exfalso
      obtain ⟨place, name, nonempty, _, beside, _⟩ := (compatible.tame key among).components_eq
      have shown := visible.shown _ visible.under visible.proper (List.prefix_refl _)
      unfold LocalBlobStore.passesOver at shown
      rw [beside, ← List.append_assoc, List.getLast?_concat] at shown
      simp [hasMetaExtension_append nonempty] at shown

/-- A listing with room for every stored blob shows exactly the stored keys that start with the
prefix. -/
theorem list_eq (compatible : Compatible keys) (represents : Represents store keys start blobs files)
    (distinct : stored.Nodup) (listed : ∀ key, key ∈ stored ↔ key ∈ keys ∧ (blobs key).isSome)
    (listable : Listable directory stored) {maxKeys : Nat} (room : stored.length ≤ maxKeys) :
    ∃ shown, store.list directory maxKeys files = .ok shown ∧
      shown.Perm ((startingWith directory stored).filterMap fun key =>
        (blobs key).map fun blob => blob.metadata key) := by
  have exactly := visible_iff compatible represents listed listable
  obtain ⟨base, base_path, route⟩ : ∃ base : Route,
      base.path = store.basePath ++ components directory ∧
        store.fullPath directory files = .ok base := by
    refine ⟨{ path := store.basePath ++ components directory, slash := meansDirectory directory },
      rfl, ?_⟩
    unfold LocalBlobStore.fullPath
    rw [listable.accepted]
    have inside : store.basePath.isPrefixOf (store.basePath ++ components directory) = true :=
      List.isPrefixOf_iff_prefix.mpr (List.prefix_append _ _)
    simp only [Bool.false_eq_true, if_false, inside, if_true]
    split <;> rfl
  have kept : ∀ key ∈ startingWith directory stored, key ∈ stored ∧ key ∈ keys ∧
      directory.toList <+: key.toList ∧ ∃ blob, blobs key = some blob := by
    intro key member
    obtain ⟨among, starts⟩ := List.mem_filter.mp member
    obtain ⟨within, present⟩ := (listed key).mp among
    exact ⟨among, within, List.isPrefixOf_iff_prefix.mp starts, Option.isSome_iff_exists.mp present⟩
  unfold LocalBlobStore.list
  rw [route]
  dsimp only
  cases reached : files.find base with
  | error error =>
    refine ⟨[], rfl, ?_⟩
    have nothing : startingWith directory stored = [] := by
      by_contra some_keys
      obtain ⟨key, member⟩ := List.exists_mem_of_ne_nil _ some_keys
      have visible := (exactly _).mp (List.mem_map_of_mem member)
      obtain ⟨rest, split⟩ := visible.under
      obtain ⟨content, found⟩ := Tree.isFile_iff.mp visible.file
      have directory_there : files.lookup (store.basePath ++ components directory) =
          some .directory := by
        apply Tree.directory_of_prefix
        · rw [split, found]
          rfl
        · rintro rfl
          exact visible.proper ((List.append_nil _).symm.trans split)
      rw [← base_path] at directory_there
      exact nomatch reached.symm.trans (Tree.find_of_directory directory_there)
    rw [nothing]
    exact .nil
  | ok node =>
    refine ⟨_, rfl, ?_⟩
    rw [base_path]
    have injective : ∀ first ∈ startingWith directory stored,
        ∀ second ∈ startingWith directory stored,
          store.basePath ++ components first = store.basePath ++ components second →
            first = second := fun first one second two same =>
      (compatible.path_inj store.basePath (kept first one).2.1 (kept second two).2.1).mp same
    have nodup : ((startingWith directory stored).map fun key =>
        store.basePath ++ components key).Nodup :=
      List.Nodup.map_on injective (distinct.filter _)
    have fits : ((startingWith directory stored).map fun key =>
        store.basePath ++ components key).length ≤ maxKeys := by
      rw [List.length_map]
      exact (List.length_filter_le _ _).trans room
    have walked := (Tree.walk_perm nodup exactly fits).map fun path =>
      store.describe directory (store.basePath ++ components directory) path files
    refine walked.trans (List.Perm.of_eq ?_)
    rw [List.map_map]
    generalize same : startingWith directory stored = among at kept
    clear same injective nodup fits walked
    induction among with
    | nil => rfl
    | cons key rest ih =>
      obtain ⟨member, within, starts, blob, given⟩ := kept key List.mem_cons_self
      rw [List.map_cons, List.filterMap_cons, given,
        ih fun other later => kept other (List.mem_cons_of_mem _ later)]
      exact congrArg (· :: _)
        (describe_eq compatible represents listable member within given starts)

end Listing

end Blob
end Mnemo
