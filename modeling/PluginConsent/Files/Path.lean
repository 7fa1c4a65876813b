namespace PluginConsent.Path

/-- No operation takes a longer path. A path is never normalised, so the text that it is given in is
the text that it is reported in. -/
def maxBytes : Nat := 4095

def fits (path : String) : Bool := path.utf8ByteSize ≤ maxBytes

def isAbsolute (path : String) : Bool := path.toList.head? == some '/'

def endsInSlash (path : String) : Bool := path.toList.getLast? == some '/'

/-- An absolute path on the right replaces what is on the left. -/
def join (base path : String) : String :=
  if isAbsolute path then path
  else if base = "" ∨ endsInSlash base then base ++ path
  else base ++ "/" ++ path

end PluginConsent.Path
