import ClawMux.Core.Effects

namespace ClawMux
set_option autoImplicit true
open Lib Lib.Text

structure DownloadedFile where
  filename : String
  host_path : String
  container_path : String
  size_bytes : Int
  mime_type : Json

structure FileSettings where
  workspace_base_path : String := "/configs"
  attachment_max_size_mb : Int := 50
  container_workspace_root : String := "/home/node/.openclaw/workspace"

def FileSettings.max_bytes (settings : FileSettings) : Int :=
  settings.attachment_max_size_mb * 1024 * 1024

/-! Texts and numbers -/

def is_hex (c : Char) : Bool :=
  c.isDigit || ('a' ≤ c && c ≤ 'f') || ('A' ≤ c && c ≤ 'F')

/-- The groups of hexadecimal digits that a text begins with, separated by `-`. -/
def match_groups : List Nat → List Char → Option (List Char)
  | [], _ => some []
  | n :: ns, s =>
    let digits := s.take n
    if digits.length = n ∧ digits.all is_hex then
      match ns, s.drop n with
      | [], _ => some digits
      | _, '-' :: rest => (match_groups ns rest).map fun more => digits ++ '-' :: more
      | _, _ => none
    else none

/-- The first match of `_UUID_RE`. -/
def extract_uuid_from_instance_url (instance_url : String) : Option String :=
  (instance_url.toList.tails.findSome? (match_groups [8, 4, 4, 4, 12])).map String.ofList

/-- The part after the last `/`. -/
def basename (path : List Char) : List Char := (path.reverse.takeWhile (· ≠ '/')).reverse

def sanitize_filename (name fallback : String) : String :=
  if name = "" then fallback
  else
    let base := basename (name.toList.map fun c => if c = '\\' then '/' else c)
    let clean := base.filter fun c => !(c.toNat < 0x20 || c.toNat = 0x7f)
    let clean := clean.dropWhile fun c => c = '.' || c = ' '
    if clean = [] then fallback else String.ofList clean

/-- `os.path.join(dir, name)`, where `dir` is not empty and does not end in a slash -/
def path_join (dir name : String) : String :=
  if startsWith name "/" then name else dir ++ "/" ++ name

/-- The loop of `os.path.normpath`, with the components so far in reverse. -/
def norm_comps (absolute : Bool) : List (List Char) → List (List Char) → List (List Char)
  | new_comps, [] => new_comps.reverse
  | new_comps, comp :: comps =>
    if comp = [] ∨ comp = ['.'] then norm_comps absolute new_comps comps
    else if comp ≠ ['.', '.'] ∨ absolute = false ∧ new_comps = [] ∨
        new_comps.head? = some ['.', '.'] then
      norm_comps absolute (comp :: new_comps) comps
    else norm_comps absolute new_comps.tail comps

/-- `os.path.normpath`; just two leading slashes are kept. -/
def normpath (path : String) : String :=
  let slashes := (path.toList.takeWhile (· = '/')).length
  let initial_slashes := if slashes = 2 then 2 else min slashes 1
  let comps := norm_comps (0 < initial_slashes) [] (path.toList.splitOn '/')
  let norm := List.replicate initial_slashes '/' ++ ['/'].intercalate comps
  if norm = [] then "." else String.ofList norm

/-- `os.path.splitext`; leading dots do not begin an extension. -/
def splitext (path : String) : String × String :=
  let reversed := path.toList.reverse
  let ext := reversed.takeWhile fun c => c ≠ '.' && c ≠ '/'
  match reversed.drop ext.length with
  | '.' :: root =>
    if (root.takeWhile (· ≠ '/')).any (· ≠ '.') then
      (String.ofList root.reverse, String.ofList ('.' :: ext.reverse))
    else (path, "")
  | _ => (path, "")

/-- `int(x)`; `none` when it raises. -/
def parse_int : Json → Option Int
  | .bool b => some (if b then 1 else 0)
  | .num q => some (if q < 0 then -(-q).floor else q.floor)
  | .str s => readInt s
  | _ => none

def openclaw_root : String := "/home/node/.openclaw/"

/-- The path on the host, and the empty text for a path outside the workspace of `uuid`. -/
def container_path_to_host (workspace_base_path : String) (realpath : String → String)
    (container_path uuid : String) : String :=
  if startsWith container_path openclaw_root = false then ""
  else
    let relative := dropLen container_path openclaw_root
    let base := workspace_base_path ++ "/" ++ uuid
    let candidate := normpath (path_join base relative)
    if candidate ≠ base ∧ startsWith candidate (base ++ "/") = false then ""
    else
      let resolved := realpath candidate
      let resolved_base := realpath base
      if resolved ≠ resolved_base ∧ startsWith resolved (resolved_base ++ "/") = false then ""
      else candidate

def type_error : Exn := ⟨.other, "TypeError"⟩

def value_error : Exn := ⟨.other, "ValueError"⟩

def overflow_error : Exn := ⟨.other, "OverflowError"⟩

def attribute_error : Exn := ⟨.other, "AttributeError"⟩

namespace FileManager

/-- The name that `_download_one` takes from the metadata. -/
def filename_of (file_id : String) (fields : List (String × Json)) : Except Exn String :=
  let name := Json.get fields "name" .null
  if name.truthy then
    match name with
    | .str s => .ok (sanitize_filename s file_id)
    | _ => .error attribute_error
  else .ok (sanitize_filename file_id file_id)

/-- `int(meta.get("size", 0))` -/
def size_of (fields : List (String × Json)) : Except Exn Int :=
  let size := Json.get fields "size" (.num 0)
  match parse_int size with
  | some size_bytes => .ok size_bytes
  | none =>
    match size with
    | .str _ => .error value_error
    | _ => .error type_error

/-- A size over the limit is logged in megabytes, as a float: `2 ^ 1044 - 2 ^ 990` bytes are too
many for one. -/
def log_size (max_bytes size_bytes : Int) : Except Exn Unit :=
  if max_bytes < size_bytes ∧ 0x3fffffffffffff ≤ size_bytes.natAbs >>> 990 then
    .error overflow_error
  else .ok ()

/-- What `_download_one` reads from the metadata: the name, the size and the type. -/
def parse_meta (file_id : String) (max_bytes : Int) : Json → Except Exn (String × Int × Json)
  | .obj fields => do
    let filename ← filename_of file_id fields
    let size_bytes ← size_of fields
    log_size max_bytes size_bytes
    return (filename, size_bytes, Json.get fields "mime_type" (.str "application/octet-stream"))
  | _ => .error attribute_error

/-- A name that is taken gets a random suffix. -/
def free_name (host_dir filename : String) : Task String :=
  (Program.perform (Effect.path_exists (path_join host_dir filename))).bind fun taken : Bool =>
    if taken then
      (Program.perform Effect.uuid4_hex).bind fun hex : String =>
        let (base, ext) := splitext filename
        .done (base ++ "_" ++ String.ofList (hex.toList.take 6) ++ ext)
    else .done filename

/-- `os.chmod`, whose `OSError` is only logged. -/
def chmod (host_path : String) : Fallible Unit :=
  (Program.perform (Effect.chmod host_path)).bind fun done : Except Exn Unit =>
    match done with
    | .ok () => .done (.ok ())
    | .error e => if e.kind = .os_error then .done (.ok ()) else .done (.error e)

/-- A size that is infinite or no number, which `int` refuses, counts as metadata that cannot be
read. -/
def read_meta (file_id : String) (max_bytes : Int) : Fallible (String × Int × Json) :=
  (Program.perform (Effect.get_info file_id)).andThen fun info : Json =>
    .done (parse_meta file_id max_bytes info)

def download_one (settings : FileSettings) (file_id host_dir : String) (max_bytes : Int) :
    Fallible (Option DownloadedFile) :=
  (read_meta file_id max_bytes).andThen fun (filename, size_bytes, mime_type) =>
    if max_bytes < size_bytes then .done (.ok none)
    else
      (free_name host_dir filename).bind fun filename =>
        let host_path := path_join host_dir filename
        (Program.perform (Effect.get_file file_id host_path)).andThen fun () =>
          (chmod host_path).andThen fun () =>
            .done (.ok (some ⟨filename, host_path,
              settings.container_workspace_root ++ "/downloads/" ++ filename, size_bytes,
              mime_type⟩))

/-- The loop of `download_attachments`; an HTTP error skips its file. -/
def download_all (settings : FileSettings) (host_dir : String) (max_bytes : Int) :
    List String → Fallible (List DownloadedFile)
  | [] => .done (.ok [])
  | file_id :: file_ids =>
    (download_one settings file_id host_dir max_bytes).bind fun downloaded =>
      match downloaded with
      | .error e =>
        if e.kind = .http_error then download_all settings host_dir max_bytes file_ids
        else .done (.error e)
      | .ok found =>
        (download_all settings host_dir max_bytes file_ids).andThen fun results =>
          .done (.ok (found.toList ++ results))

def download_attachments (settings : FileSettings) (file_ids : List String) (uuid : String) :
    Fallible (List DownloadedFile) :=
  if file_ids = [] then .done (.ok [])
  else
    let host_dir := settings.workspace_base_path ++ "/" ++ uuid ++ "/workspace/downloads"
    (Program.perform (Effect.makedirs host_dir)).andThen fun () =>
      download_all settings host_dir settings.max_bytes file_ids

end FileManager

def attachment_line (py : Dynamics) (f : DownloadedFile) : String :=
  "- `" ++ f.filename ++ "` (" ++ f.mime_type.format py ++ ", " ++ toString (f.size_bytes / 1024) ++
    " KB) → `" ++ f.container_path ++ "`"

def build_attachment_context (py : Dynamics) (files : List DownloadedFile) : String :=
  if files.isEmpty then ""
  else
    "\n\n[SYSTEM: the user attached one or more files. " ++
      "They are available to read at the following paths:]\n" ++
      "\n".intercalate (files.map (attachment_line py))

end ClawMux
