import PluginConsent.Declaration
import PluginConsent.Files.Bounded
import PluginConsent.Files.Walk
import PluginConsent.Json.Reader
import PluginConsent.Text.Blank

namespace PluginConsent

/-- Why a plugin or a link is passed over; the location is the part that is to blame. -/
inductive SkipReason where
  | link (loc : Location)
  | outside (loc : Location)
  | notAFile (loc : Location)
  | unreadable (loc : Location) (cause : FileError)
  | tooLarge (loc : Location) (size : Nat)
  | malformed (loc : Location)
  | notAnObject (loc : Location)
  | noPermissions (loc : Location)
deriving DecidableEq, Repr

namespace Manifest

def markerName : String := ".claude-plugin"

def fileName : String := "plugin.json"

def maxBytes : Nat := 1024 * 1024

def marker (plugin : Location) : Location := plugin ++ [markerName]

def location (plugin : Location) : Location := marker plugin ++ [fileName]

def ofText (loc : Location) (text : String) : Except SkipReason Json.Object :=
  match Json.ofString? text with
  | none => .error (.malformed loc)
  | some (.object fields) => .ok fields
  | some _ => .error (.notAnObject loc)

def ofContent (loc : Location) (content : ByteArray) : Except SkipReason Json.Object :=
  if maxBytes < content.size then .error (.tooLarge loc content.size)
  else match readBounded maxBytes content with
    | .error e => .error (.unreadable loc e)
    | .ok none => .error (.tooLarge loc (maxBytes + 1))
    | .ok (some text) => ofText loc text

def checkInside (t : Tree) (cache loc : Location) : Except SkipReason Unit :=
  match t.linkStatus .root loc.text with
  | .error e => .error (.unreadable loc e)
  | .ok (.link _) => .error (.link loc)
  | .ok _ =>
    match t.canonical .root loc.text with
    | .error e => .error (.unreadable loc e)
    | .ok found => if cache.isPrefixOf found then .ok () else .error (.outside loc)

/-- The content of the file at a location. Opening it would follow a link, so it is looked at first. -/
def fileContent (t : Tree) (who : Account) (loc : Location) : Except SkipReason ByteArray :=
  match t.linkStatus .root loc.text with
  | .error e => .error (.unreadable loc e)
  | .ok (.file _ _) =>
    match t.readFile who .root loc.text with
    | .error e => .error (.unreadable loc e)
    | .ok content => .ok content
  | .ok _ => .error (.notAFile loc)

def content (t : Tree) (who : Account) (cache plugin : Location) : Except SkipReason ByteArray := do
  checkInside t cache plugin
  checkInside t cache (marker plugin)
  checkInside t cache (location plugin)
  fileContent t who (location plugin)

def pluginName (plugin : Location) (fields : Json.Object) : String :=
  match ((Entries.find? "name" fields).bind Json.string?).map Text.trim with
  | some name => if name = "" then plugin.getLastD "" else name
  | none => plugin.getLastD ""

def declaration (plugin : Location) (fields : Json.Object) : Except SkipReason Declaration :=
  match Entries.find? "permissions" fields with
  | some (.object (p :: ps)) => .ok ⟨pluginName plugin fields, p :: ps⟩
  | _ => .error (.noPermissions (location plugin))

def read (t : Tree) (who : Account) (cache plugin : Location) : Except SkipReason Declaration := do
  declaration plugin (← ofContent (location plugin) (← content t who cache plugin))

end Manifest

namespace SkipReason

def message : SkipReason → String
  | .link loc => loc.text ++ " is a symbolic link"
  | .outside loc => loc.text ++ " resolves outside the plugin cache"
  | .notAFile loc => loc.text ++ " is not a regular file"
  | .unreadable loc cause => "failed to read manifest " ++ loc.text ++ ": " ++ cause.message
  | .tooLarge loc size =>
    "manifest " ++ loc.text ++ " is " ++ toString size ++ " bytes, exceeding the "
      ++ toString Manifest.maxBytes ++ " byte limit"
  | .malformed loc => "failed to parse manifest " ++ loc.text
  | .notAnObject loc => "manifest " ++ loc.text ++ " is not a JSON object"
  | .noPermissions loc => "manifest " ++ loc.text ++ " declares no permissions"

end SkipReason

end PluginConsent
