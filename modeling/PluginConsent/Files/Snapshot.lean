import PluginConsent.Files.Route
import PluginConsent.Files.Tree
import PluginConsent.Json.Printer
import PluginConsent.Json.Reader

namespace PluginConsent

namespace Entry

def byte? (v : Json) : Option UInt8 :=
  v.nat?.bind fun n => if n < 256 then some (UInt8.ofNat n) else none

def contentMember (content : ByteArray) : String × Json :=
  match String.fromUTF8? content with
  | some text => ("text", .string text)
  | none => ("bytes", .array (content.toList.map fun b => Json.ofNat b.toNat))

def content? (fields : Json.Object) : Option ByteArray :=
  match Entries.find? "text" fields with
  | some v => v.string?.map String.toUTF8
  | none => do
    let items ← (Entries.find? "bytes" fields).bind Json.array?
    return ⟨(← items.mapM byte?).toArray⟩

def toJson : Entry → Json
  | .file content mode =>
    .object [("kind", .string "file"), ("mode", Json.ofNat mode), contentMember content]
  | .directory mode => .object [("kind", .string "directory"), ("mode", Json.ofNat mode)]
  | .link target => .object [("kind", .string "link"), ("target", .string target)]
  | .pipe mode => .object [("kind", .string "pipe"), ("mode", Json.ofNat mode)]

def ofFields? (fields : Json.Object) : Option Entry :=
  let mode := (Entries.find? "mode" fields).bind Json.nat?
  match Entries.find? "kind" fields with
  | some (.string "file") => mode.bind fun m => (content? fields).map fun c => .file c m
  | some (.string "directory") => mode.map .directory
  | some (.string "link") => ((Entries.find? "target" fields).bind Json.string?).map .link
  | some (.string "pipe") => mode.map .pipe
  | _ => none

end Entry

namespace Tree

def member? (m : String × Json) : Option (Location × Entry) := do
  let fields ← m.2.object?
  return ((Route.ofString m.1).names, ← Entry.ofFields? fields)

def snapshot (t : Tree) : String :=
  (Json.object (t.toList.map fun e => (e.1.text, e.2.toJson))).compact

def ofSnapshot? (text : String) : Option Tree := do
  let fields ← (← Json.ofString? text).object?
  return ofList (← fields.mapM member?)

end Tree

end PluginConsent
