import Mnemo.Blob.Refinement

/-!
# Runs of the local store

Any sequence of operations on keys whose files do not get in each other's way is answered as by a
map.
-/

namespace Mnemo
namespace Blob

open FileTree

/-- The blobs that are stored, as a finite map. -/
abbrev BlobMap := AList fun _ : String => StoredBlob

/-- An operation which changes the store. -/
inductive BlobEvent where
  | put (key : String) (data : ByteArray) (contentType : String)
  | delete (key : String)
  | copy (source target : String)

/-- The file system, and the blobs that it should hold. -/
structure BlobRun where
  files : Files
  blobs : BlobMap

/-- What an operation does to a map of blobs. -/
def BlobEvent.apply : BlobEvent → BlobMap → BlobMap
  | .put key data contentType, blobs => blobs.insert key { data, contentType }
  | .delete key, blobs => blobs.erase key
  | .copy source target, blobs =>
      match blobs.lookup source with
      | some blob => blobs.insert target blob
      | none => blobs

/-- What an operation does to the file system. -/
def BlobEvent.perform (store : LocalBlobStore) : BlobEvent → Files → Files
  | .put key data contentType, files => (store.put key data contentType files).2
  | .delete key, files => (store.delete key files).2
  | .copy source target, files => (store.copy source target files).2

/-- One step. -/
def blobStep (store : LocalBlobStore) (run : BlobRun) (event : BlobEvent) : BlobRun :=
  { files := event.perform store run.files, blobs := event.apply run.blobs }

/-- The operation is about some of the keys. -/
def BlobEvent.About (keys : Set String) : BlobEvent → Prop
  | .put key _ _ | .delete key => key ∈ keys
  | .copy source target => source ∈ keys ∧ target ∈ keys

/-- The operation does not copy a blob onto itself. -/
def BlobEvent.MovesOn : BlobEvent → Prop
  | .put _ _ _ | .delete _ => True
  | .copy source target => source ≠ target

/-- The directory of the blobs can be reached, and there is nothing in it. -/
structure Vacant (store : LocalBlobStore) (files : Files) : Prop where
  reachable : ∀ before, before <+: store.basePath → files.isFile before = false
  empty : ∀ path, store.basePath <+: path → store.basePath ≠ path → files.lookup path = none

/-- Keys are read and described as the map has them, listings show the stored keys that start with
their prefix, and the files elsewhere are as they were. -/
structure Serves (store : LocalBlobStore) (keys : Set String) (start : Files) (run : BlobRun) :
    Prop where
  gets : ∀ key ∈ keys, store.get key run.files =
    match run.blobs.lookup key with
    | some blob => .ok (blob.data, blob.metadata key)
    | none => .error (.notFound "Blob" key)
  heads : ∀ key ∈ keys, store.head key run.files =
    match run.blobs.lookup key with
    | some blob => .ok (blob.metadata key)
    | none => .error (.notFound "Blob" key)
  lists : ∀ directory maxKeys, Listable directory run.blobs.keys →
    run.blobs.keys.length ≤ maxKeys →
      ∃ shown, store.list directory maxKeys run.files = .ok shown ∧
        shown.Perm ((startingWith directory run.blobs.keys).filterMap fun key =>
          (run.blobs.lookup key).map fun blob => blob.metadata key)
  confined : ∀ path, ¬ store.basePath <+: path → ∀ content,
    run.files.lookup path = some (.file content) ↔ start.lookup path = some (.file content)

section Runs

variable {store : LocalBlobStore} {keys : Set String} {start : Files} {run : BlobRun}

theorem lookup_insert_eq (blobs : BlobMap) (key : String) (blob : StoredBlob) :
    (blobs.insert key blob).lookup = Function.update blobs.lookup key (some blob) := by
  funext other
  by_cases same : other = key
  · rw [same, Function.update_self]
    exact AList.lookup_insert _
  · rw [Function.update_of_ne same]
    exact AList.lookup_insert_ne same

theorem lookup_erase_eq (blobs : BlobMap) (key : String) :
    (blobs.erase key).lookup = Function.update blobs.lookup key none := by
  funext other
  by_cases same : other = key
  · rw [same, Function.update_self]
    exact AList.lookup_erase _ _
  · rw [Function.update_of_ne same]
    exact AList.lookup_erase_ne same

/-- The files represent the map, which has only some keys. -/
structure Faithful (store : LocalBlobStore) (keys : Set String) (start : Files) (run : BlobRun) :
    Prop where
  represents : Represents store keys start run.blobs.lookup run.files
  known : ∀ key ∈ run.blobs.keys, key ∈ keys

theorem faithful_start (compatible : Compatible keys) (vacant : Vacant store start) :
    Faithful store keys start { files := start, blobs := ∅ } := by
  refine ⟨⟨fun _ => none, ⟨?_, ?_, vacant.reachable, fun _ _ _ => Iff.rfl⟩, fun key _ => ?_⟩, ?_⟩
  · intro slot member
    obtain ⟨under, proper⟩ := compatible.places.under slot member
    exact vacant.empty slot under proper
  · intro path under file
    exfalso
    by_cases same : store.basePath = path
    · rw [← same, vacant.reachable store.basePath (List.prefix_refl _)] at file
      cases file
    · unfold Tree.isFile at file
      rw [vacant.empty path under same] at file
      cases file
  · exact ⟨rfl, rfl⟩
  · exact fun key member => by cases member

/-- Every operation keeps the relation. -/
theorem Faithful.step (faithful : Faithful store keys start run) (compatible : Compatible keys)
    {event : BlobEvent} (about : event.About keys) (moves : event.MovesOn) :
    Faithful store keys start (blobStep store run event) := by
  obtain ⟨represents, known⟩ := faithful
  cases event with
  | put key data contentType =>
    refine ⟨?_, fun other member => ?_⟩
    · change Represents store keys start (run.blobs.insert key { data, contentType }).lookup
        (store.put key data contentType run.files).2
      rw [lookup_insert_eq]
      exact (put_represents compatible about represents { data, contentType }).2
    · rcases AList.mem_insert run.blobs |>.mp (AList.mem_keys.mpr member) with rfl | old
      · exact about
      · exact known other (AList.mem_keys.mp old)
  | delete key =>
    refine ⟨?_, fun other member => ?_⟩
    · change Represents store keys start (run.blobs.erase key).lookup
        (store.delete key run.files).2
      rw [lookup_erase_eq]
      exact (delete_represents compatible about represents).2
    · exact known other (AList.mem_keys.mp (AList.mem_erase.mp (AList.mem_keys.mpr member)).2)
  | copy source target =>
    have copied := (copy_represents compatible about.1 about.2 moves represents).2
    cases given : run.blobs.lookup source with
    | some blob =>
      rw [given] at copied
      have applied : (blobStep store run (.copy source target)).blobs =
          run.blobs.insert target blob := by
        simp only [blobStep, BlobEvent.apply, given]
      refine ⟨?_, fun other member => ?_⟩
      · rw [applied, lookup_insert_eq]
        exact copied
      · rw [applied] at member
        rcases AList.mem_insert run.blobs |>.mp (AList.mem_keys.mpr member) with rfl | old
        · exact about.2
        · exact known other (AList.mem_keys.mp old)
    | none =>
      rw [given] at copied
      have applied : (blobStep store run (.copy source target)).blobs = run.blobs := by
        simp only [blobStep, BlobEvent.apply, given]
      refine ⟨?_, fun other member => ?_⟩
      · rw [applied]
        exact copied
      · rw [applied] at member
        exact known other member

theorem Faithful.serves (faithful : Faithful store keys start run) (compatible : Compatible keys) :
    Serves store keys start run where
  gets key member := get_eq compatible member faithful.represents
  heads key member := head_eq compatible member faithful.represents
  lists directory maxKeys listable room := by
    apply list_eq compatible faithful.represents run.blobs.keys_nodup _ listable room
    intro key
    rw [AList.lookup_isSome, AList.mem_keys]
    exact ⟨fun member => ⟨faithful.known key member, member⟩, fun both => both.2⟩
  confined := by
    obtain ⟨contents, holds, _⟩ := faithful.represents
    exact holds.outside

/-- From an empty directory on, every run of operations on compatible keys, none of which copies a
blob onto itself, is served as by a map in every state. -/
theorem serves_throughout (store : LocalBlobStore) (start : Files) (vacant : Vacant store start)
    (keys : Set String) (compatible : Compatible keys) (events : List BlobEvent)
    (about : ∀ event ∈ events, event.About keys) (moves : ∀ event ∈ events, event.MovesOn) :
    StateMachine.Always (blobStep store) (Serves store keys start)
      { files := start, blobs := ∅ } events := by
  have general : ∀ (events : List BlobEvent) (run : BlobRun), Faithful store keys start run →
      (∀ event ∈ events, event.About keys) → (∀ event ∈ events, event.MovesOn) →
        StateMachine.Always (blobStep store) (Serves store keys start) run events := by
    intro events
    induction events with
    | nil => exact fun run faithful _ _ => faithful.serves compatible
    | cons event events ih =>
        intro run faithful about moves
        refine ⟨faithful.serves compatible, ih _ ?_ ?_ ?_⟩
        · exact faithful.step compatible (about event List.mem_cons_self)
            (moves event List.mem_cons_self)
        · exact fun later member => about later (List.mem_cons_of_mem _ member)
        · exact fun later member => moves later (List.mem_cons_of_mem _ member)
  exact general events _ (faithful_start compatible vacant) about moves

end Runs

/-! ## Two keys and a copy -/

/-- A file system with nothing but its root. -/
def emptyFiles : Files where
  nodes := AList.singleton [] .directory
  root := rfl
  closed path found := by
    have member := AList.lookup_isSome.mp found
    rw [AList.mem_keys, AList.keys_singleton, List.mem_singleton] at member
    rw [member]
    rfl

/-- A store in a directory of the root. -/
def blobsStore : LocalBlobStore :=
  { basePath := ["blobs"], directoryLength := 4096, display := fun _ _ => "" }

theorem vacant_emptyFiles : Vacant blobsStore emptyFiles where
  reachable before reaches := by
    have known : before = [] ∨ before = ["blobs"] := by
      have short : before ∈ ["blobs"].inits := (List.mem_inits before ["blobs"]).mpr reaches
      simpa using short
    rcases known with rfl | rfl <;> rfl
  empty path under _ := by
    cases found : emptyFiles.lookup path with
    | none => rfl
    | some node =>
      have present : (emptyFiles.nodes.lookup path).isSome :=
        Option.isSome_iff_exists.mpr ⟨node, found⟩
      have member := AList.lookup_isSome.mp present
      rw [AList.mem_keys, show emptyFiles.nodes.keys = [[]] from rfl,
        List.mem_singleton] at member
      rw [member] at under
      exact absurd (List.prefix_nil.mp under) (by decide)

/-- A blob is stored, copied and deleted. -/
theorem serves_throughout_copied :
    StateMachine.Always (blobStep blobsStore) (Serves blobsStore {"a/b", "c"} emptyFiles)
      { files := emptyFiles, blobs := ∅ }
      [.put "a/b" ⟨#[1, 2]⟩ "text/plain", .copy "a/b" "c", .delete "a/b"] := by
  have first : "a/b" ∈ ({"a/b", "c"} : Set String) := .inl rfl
  have second : "c" ∈ ({"a/b", "c"} : Set String) := .inr rfl
  apply serves_throughout blobsStore emptyFiles vacant_emptyFiles
  case compatible =>
    constructor
    · rintro _ (rfl | rfl) <;> constructor <;> decide +kernel
    · rintro _ (rfl | rfl) _ (rfl | rfl) <;> decide +kernel
    · rintro _ (rfl | rfl) _ (rfl | rfl) <;> decide +kernel
  case about =>
    intro event member
    simp only [List.mem_cons, List.not_mem_nil, or_false] at member
    rcases member with rfl | rfl | rfl
    · exact first
    · exact ⟨first, second⟩
    · exact first
  case moves =>
    intro event member
    simp only [List.mem_cons, List.not_mem_nil, or_false] at member
    rcases member with rfl | rfl | rfl
    · trivial
    · change "a/b" ≠ "c"
      decide
    · trivial

/-! ## A key that looks like a content type -/

/-- A blob is overwritten with the content type of another one. -/
theorem content_type_overwrites_blob :
    ¬ ∀ (store : LocalBlobStore) (start : Files) (keys : Set String) (events : List BlobEvent),
      Vacant store start → (∀ key ∈ keys, traverses key = false) →
      (∀ key ∈ keys, ∀ other ∈ keys, components key <+: components other → key = other) →
      (∀ event ∈ events, event.About keys) →
        StateMachine.Always (blobStep store) (Serves store keys start)
          { files := start, blobs := ∅ } events := by
  intro always
  have first : "a.meta" ∈ ({"a.meta", "a"} : Set String) := .inl rfl
  have second : "a" ∈ ({"a.meta", "a"} : Set String) := .inr rfl
  have final := (always blobsStore emptyFiles {"a.meta", "a"}
    [.put "a.meta" ⟨#[7]⟩ "image/png", .put "a" ⟨#[1, 2]⟩ "text/plain"] vacant_emptyFiles
    (by rintro _ (rfl | rfl) <;> decide +kernel)
    (by rintro _ (rfl | rfl) _ (rfl | rfl) <;> decide +kernel)
    (by
      intro event member
      simp only [List.mem_cons, List.not_mem_nil, or_false] at member
      rcases member with rfl | rfl
      · exact first
      · exact second)).finish
  have described := final.heads "a.meta" first
  have sizes := congrArg (fun outcome => outcome.toOption.map BlobMetadata.sizeBytes) described
  exact absurd sizes (by decide +kernel)

end Blob
end Mnemo
