import Mnemo.Lib.FileTree

/-!
# Blobs in the local file system

A blob is a file at the path of its key, and its content type is a second file beside it.
-/

namespace Mnemo
namespace Blob

open FileTree

/-- Why an operation on blobs fails. -/
inductive BlobError where
  | validation (message : String)
  | storage (message : String)
  | notFound (resourceType id : String)
  deriving DecidableEq, Repr

/-- What is told about a blob. -/
structure BlobMetadata where
  key : String
  sizeBytes : Nat
  contentType : String
  etag : Option String
  deriving DecidableEq, Repr

/-! ## Paths of keys -/

/-- The parts of a key between its slashes. -/
def segments : List Char → List (List Char)
  | [] => [[]]
  | char :: chars =>
      if char = '/' then [] :: segments chars
      else
        match segments chars with
        | [] => [[char]]
        | first :: rest => (char :: first) :: rest

/-- Whether a part of a key names something; an empty part and a single dot do not. -/
def isComponent (segment : List Char) : Bool := decide (segment ≠ [] ∧ segment ≠ ['.'])

/-- The names on the way of a key. -/
def components (key : String) : Path :=
  ((segments key.toList).filter isComponent).map String.ofList

/-- Whether a key ends like the path of a directory. -/
def meansDirectory (key : String) : Bool :=
  (segments key.toList).getLast?.all fun segment => !isComponent segment

/-- Whether two dots stand side by side. -/
def containsParent : List Char → Bool
  | '.' :: '.' :: _ => true
  | _ :: chars => containsParent chars
  | [] => false

/-- Whether a key is refused because of its characters. -/
def traverses (key : String) : Bool :=
  containsParent key.toList || key.toList.head? == some '/' || key.toList.head? == some '\\'

/-- The key of the file which has the content type. -/
def metaKey (key : String) : String := key ++ ".meta"

/-- Whether the extension of a file name is that of a content type. -/
def hasMetaExtension (name : String) : Bool :=
  decide (".meta".toList <:+ name.toList ∧ name.toList ≠ ".meta".toList)

/-- A relative path without its leading separators and single dots. -/
def trimLeft : List Char → List Char
  | '/' :: chars => trimLeft chars
  | '.' :: '/' :: chars => trimLeft chars
  | ['.'] => []
  | chars => chars

/-- The text of a path from names. -/
def joinNames : Path → List Char
  | [] => []
  | [name] => name.toList
  | name :: names => name.toList ++ '/' :: joinNames names

/-- The key of what stands under a prefix. -/
def keyUnder (directory : String) (names : Path) : String :=
  let start := trimLeft directory.toList
  String.ofList (
    if start = [] then joinNames names
    else if start.getLast? = some '/' then start ++ joinNames names
    else start ++ '/' :: joinNames names)

/-! ## The store -/

/-- The directory of the blobs, the length that a directory is said to have, and how a failure at a
path is printed. -/
structure LocalBlobStore where
  basePath : Path
  directoryLength : Nat
  display : Route → IoError → String

/-- The file system. -/
abbrev Files := FileTree.Tree ByteArray

namespace LocalBlobStore

variable (store : LocalBlobStore)

/-- The path of a key, if it is acceptable. -/
def fullPath (key : String) (files : Files) : Except BlobError Route :=
  if traverses key then .error (.validation "Invalid storage key: path traversal detected")
  else
    let route : Route :=
      { path := store.basePath ++ components key, slash := meansDirectory key }
    match files.find route with
    | .ok _ =>
        if store.basePath.isPrefixOf route.path then .ok route
        else .error (.validation "Invalid storage key: path traversal detected")
    | .error _ => .ok route

/-- Make the directory of a path. -/
def ensureParentDir (route : Route) (files : Files) : Except BlobError Files :=
  match files.createDirAll route.path.dropLast with
  | .ok made => .ok made
  | .error error => .error (.storage ("Failed to create directory " ++
      store.display { path := route.path.dropLast, slash := false } error))

/-- The content type of a blob, or the default one. -/
def readContentType (key : String) (files : Files) : Except BlobError String :=
  match store.fullPath (metaKey key) files with
  | .error error => .error error
  | .ok metaPath =>
      match files.read metaPath with
      | .ok bytes => .ok ((String.fromUTF8? bytes).getD "application/octet-stream")
      | .error _ => .ok "application/octet-stream"

/-- Write the content type of a blob. -/
def writeContentType (key contentType : String) (files : Files) : Except BlobError Unit × Files :=
  match store.fullPath (metaKey key) files with
  | .error error => (.error error, files)
  | .ok metaPath =>
      match store.ensureParentDir metaPath files with
      | .error error => (.error error, files)
      | .ok made =>
          match made.write contentType.toUTF8 metaPath with
          | .error error => (.error (.storage ("Failed to write content type for " ++
              store.display metaPath error)), made)
          | .ok written => (.ok (), written)

/-- The error for a blob that cannot be reached. -/
def unreachable (key action : String) (route : Route) (error : IoError) : BlobError :=
  if error = .notFound then .notFound "Blob" key
  else .storage (action ++ store.display route error)

/-- Store a blob. -/
def put (key : String) (data : ByteArray) (contentType : String) (files : Files) :
    Except BlobError BlobMetadata × Files :=
  match store.fullPath key files with
  | .error error => (.error error, files)
  | .ok path =>
      match store.ensureParentDir path files with
      | .error error => (.error error, files)
      | .ok made =>
          match made.write data path with
          | .error error =>
              (.error (.storage ("Failed to write blob " ++ store.display path error)), made)
          | .ok written =>
              match store.writeContentType key contentType written with
              | (.error error, final) => (.error error, final)
              | (.ok (), final) =>
                  (.ok { key, sizeBytes := data.size, contentType, etag := none }, final)

/-- Retrieve a blob. -/
def get (key : String) (files : Files) : Except BlobError (ByteArray × BlobMetadata) :=
  match store.fullPath key files with
  | .error error => .error error
  | .ok path =>
      match files.read path with
      | .error error => .error (store.unreachable key "Failed to read blob " path error)
      | .ok data =>
          match store.readContentType key files with
          | .error error => .error error
          | .ok contentType =>
              .ok (data, { key, sizeBytes := data.size, contentType, etag := none })

/-- Delete a blob. -/
def delete (key : String) (files : Files) : Except BlobError Unit × Files :=
  match store.fullPath key files with
  | .error error => (.error error, files)
  | .ok path =>
      match store.fullPath (metaKey key) files with
      | .error error => (.error error, files)
      | .ok metaPath =>
          match files.removeFile path with
          | .error error =>
              (.error (store.unreachable key "Failed to delete blob " path error), files)
          | .ok removed =>
              match removed.removeFile metaPath with
              | .error _ => (.ok (), removed)
              | .ok final => (.ok (), final)

/-- The length of what stands at a path. -/
def length : Node ByteArray → Nat
  | .directory => store.directoryLength
  | .file bytes => bytes.size

/-- Describe a blob. -/
def head (key : String) (files : Files) : Except BlobError BlobMetadata :=
  match store.fullPath key files with
  | .error error => .error error
  | .ok path =>
      match files.find path with
      | .error error => .error (store.unreachable key "Failed to get metadata for " path error)
      | .ok node =>
          match store.readContentType key files with
          | .error error => .error error
          | .ok contentType =>
              .ok { key, sizeBytes := store.length node, contentType, etag := none }

/-- Whether a listing passes over an entry. -/
def passesOver (path : Path) : Bool :=
  path.getLast?.any hasMetaExtension || !store.basePath.isPrefixOf path

/-- Describe a file that a listing has found. -/
def describe (directory : String) (base path : Path) (files : Files) : BlobMetadata :=
  let key := keyUnder directory (path.drop base.length)
  { key
    sizeBytes := match files.lookup path with
      | some node => store.length node
      | none => 0
    contentType := match store.readContentType key files with
      | .ok contentType => contentType
      | .error _ => ""
    etag := none }

/-- List blobs under a prefix. -/
def list (directory : String) (maxKeys : Nat) (files : Files) :
    Except BlobError (List BlobMetadata) :=
  match store.fullPath directory files with
  | .error error => .error error
  | .ok base =>
      match files.find base with
      | .error _ => .ok []
      | .ok _ =>
          .ok ((files.walk store.passesOver maxKeys [base.path] []).map fun path =>
            store.describe directory base.path path files)

/-- Copy a blob. -/
def copy (sourceKey destKey : String) (files : Files) :
    Except BlobError BlobMetadata × Files :=
  match store.fullPath sourceKey files with
  | .error error => (.error error, files)
  | .ok sourcePath =>
      match store.fullPath destKey files with
      | .error error => (.error error, files)
      | .ok destPath =>
          match store.ensureParentDir destPath files with
          | .error error => (.error error, files)
          | .ok made =>
              match made.copy .empty sourcePath destPath with
              | .error error =>
                  (.error (store.unreachable sourceKey "Failed to copy " sourcePath error), made)
              | .ok copied =>
                  match store.fullPath (metaKey sourceKey) copied with
                  | .error error => (.error error, copied)
                  | .ok sourceMeta =>
                      match store.fullPath (metaKey destKey) copied with
                      | .error error => (.error error, copied)
                      | .ok destMeta =>
                          match copied.copy .empty sourceMeta destMeta with
                          | .error _ => (store.head destKey copied, copied)
                          | .ok final => (store.head destKey final, final)

end LocalBlobStore

end Blob
end Mnemo
