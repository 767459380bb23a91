import AnalyticsDB.Control.Basic
import Mathlib.Data.List.Infix

/-!
# Storage locations

A managed table lives at a location, a URI such as `file:///data/db=a/schema=b/table=c`.
`storeForLocation` reads a location as the path of the table in its store, and
`managedTableUri` is the location a table gets when it is created.
-/

/-- The segments of a slash-separated text. -/
def splitSlash (s : String) : List String := (s.toList.splitOn '/').map String.ofList

/-- Whether `s` starts with `start`. -/
def startsWith (s start : String) : Bool := start.toList.isPrefixOf s.toList

/-- The rest of `s` after `start`, when `s` starts with it. -/
def stripStart? (s start : String) : Option String :=
  if startsWith s start then some (String.ofList (s.toList.drop start.toList.length)) else none

/-- Whether `part` occurs in `s`. -/
def contains (s part : String) : Bool := s.toList.tails.any (fun t => part.toList.isPrefixOf t)

/-- A segment an object path may have. -/
def validSegment (segment : String) : Bool :=
  !segment.isEmpty && segment != "." && segment != ".."
    && segment.toList.all (fun c => 32 ≤ c.toNat && c.toNat != 127)

/-- Read an object path: one slash at either end is dropped, and the segments between the
slashes must be allowed ones. -/
def OPath.parse (path : String) : Except String OPath :=
  let stripped := (stripStart? path "/").getD path
  if stripped.isEmpty then .ok []
  else
    let segments := splitSlash stripped
    let segments := if segments.getLast? = some "" then segments.dropLast else segments
    match segments.find? (fun segment => !validSegment segment) with
    | some segment => .error s!"Encountered illegal path segment '{segment}'"
    | none => .ok segments

/-- Split `bucket/key` at its first slash. -/
def splitBucketAndKey (rest : String) : String × String :=
  match splitSlash rest with
  | [] => (rest, "")
  | bucket :: key => (bucket, "/".intercalate key)

/-- Drop the leading slashes of a text. -/
def trimStartSlashes (s : String) : String := String.ofList (s.toList.dropWhile (· == '/'))

/-- The container and key of an Azure location.  In an `abfss` location the container is
followed by the account it belongs to. -/
def azureRest? (location : String) : Option String :=
  match (stripStart? location "az://").orElse (fun _ => stripStart? location "azure://") with
  | some rest => some rest
  | none =>
    (stripStart? location "abfss://").map (fun rest =>
      match splitSlash rest with
      | containerAtHost :: key@(_ :: _) =>
        let container := (containerAtHost.toList.splitOn '@').headD []
        String.ofList container ++ "/" ++ "/".intercalate key
      | _ => rest)

section

variable (o : Outside)

/-- A local path, made absolute. -/
def absolutePath (path : String) : String :=
  if startsWith path "/" then path else o.currentDir ++ "/" ++ path

/-- The path of a bucket's key, below the store the bucket is. -/
def bucketPath (scheme rest : String) : Except String OPath := do
  let (bucket, key) := splitBucketAndKey rest
  return (scheme ++ bucket) :: (← OPath.parse key)

/-- The object path a location denotes, its store first. -/
def storeForLocation (location : String) : Except String OPath :=
  match (stripStart? location "s3://").orElse (fun _ => stripStart? location "s3a://") with
  | some rest => bucketPath "s3://" rest
  | none =>
    match stripStart? location "gs://" with
    | some rest => bucketPath "gs://" rest
    | none =>
      match azureRest? location with
      | some rest => bucketPath "az://" rest
      | none =>
        match stripStart? location "file://" with
        | some path => ("file://" :: ·) <$> OPath.parse (trimStartSlashes (absolutePath o path))
        | none =>
          if contains location "://" then
            .error s!"Storage location '{location}' uses an unsupported scheme. Supported schemes: file://, s3://, gs://, az://, azure://."
          else
            ("file://" :: ·) <$> OPath.parse (trimStartSlashes (absolutePath o location))

/-- The name of a file without its extension. -/
def fileStem (fileName : String) : String :=
  match fileName.toList.splitOn '.' with
  | [] | [_] => fileName
  | [[], _] => fileName
  | parts => String.ofList (List.intercalate ['.'] parts.dropLast)

/-- The directory beside a catalogue file that holds its managed tables. -/
def managedRootOfCatalog (catalogPath : String) : String :=
  let segments := splitSlash catalogPath
  let stem := fileStem (segments.getLast?.getD "")
  "/".intercalate (segments.dropLast ++ [stem ++ ".managed"])

/-- The local directory of the managed tables when no storage root is configured. -/
def managedDataRoot : String :=
  match o.dataDir.map (fun dir => (stripStart? dir "file://").getD dir) with
  | some dir => if dir.isEmpty then fallback else dir
  | none => fallback
where
  fallback : String := managedRootOfCatalog (o.catalogPath.getD "analyticsdb-catalog.db")

/-- Drop the trailing slashes of a text. -/
def trimEndSlashes (s : String) : String :=
  String.ofList (s.toList.reverse.dropWhile (· == '/')).reverse

/-- The location of a managed table. -/
def managedTableUri (state : CatalogState) (database schema table : String) : String :=
  let base := trimEndSlashes
    ((state.config.bind (·.storageRoot)).getD ("file://" ++ managedDataRoot o))
  match state.config.bind (·.clusterId) with
  | some cid => s!"{base}/cluster={cid}/db={database}/schema={schema}/table={table}"
  | none => s!"{base}/db={database}/schema={schema}/table={table}"

end
