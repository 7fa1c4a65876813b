import PluginConsent.CommandLine.Display

namespace PluginConsent.CommandLine

structure Failure where
  message : String
  causes : List String
  hint : Option String

namespace Failure

def plain (message : String) : Failure := ⟨message, [], none⟩

def ofPlace (e : PlaceError) : Failure := ⟨e.message, [], some e.hint⟩

def ofFile (message : String) (e : FileError) : Failure := ⟨message, [e.message], none⟩

def ofWrite (message : String) (e : WriteError) : Failure := ⟨message, e.message :: e.causes, e.hint?⟩

def causeLines : List String → List String
  | [] => []
  | [c] => ["  caused by: " ++ c]
  | cs => cs.zipIdx.map fun c => "  " ++ toString (c.2 + 1) ++ ": " ++ c.1

def chainLines (f : Failure) : List String :=
  match f.causes with
  | [] => [f.message]
  | [c] => [f.message, "", "Caused by:", "    " ++ c]
  | cs =>
    [f.message, "", "Caused by:"] ++ cs.zipIdx.map fun c => "    " ++ toString c.2 ++ ": " ++ c.1

def hintLines (f : Failure) : List String :=
  match f.hint with
  | some h => ["", "  hint: " ++ h]
  | none => []

def detailLines (f : Failure) (verbose : Bool) : List String :=
  if verbose then ["", "Full error chain:"] ++ f.chainLines
  else if f.causes = [] then [] else ["", "  run with --verbose for full details"]

def lines (f : Failure) (verbose : Bool) : List String :=
  ["error: " ++ f.message] ++ causeLines f.causes ++ f.hintLines ++ f.detailLines verbose

end Failure

end PluginConsent.CommandLine
