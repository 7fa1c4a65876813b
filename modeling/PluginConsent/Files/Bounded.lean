import PluginConsent.Files.FileError

namespace PluginConsent

/-- Text of at most `limit` bytes; nothing if there are more, an error if those read are no UTF-8. -/
def readBounded (limit : Nat) (content : ByteArray) : Except FileError (Option String) :=
  match String.fromUTF8? (content.extract 0 (limit + 1)) with
  | none => .error .notUtf8
  | some text => .ok (if limit < text.utf8ByteSize then none else some text)

end PluginConsent
