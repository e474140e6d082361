import ScriptCheck.Lexer
import ScriptCheck.Text.Utf8

/-!
# Sources

A program text comes from a file, whose bytes are UTF-8 and whose lines may end in any of the three
customary ways.
-/

namespace ScriptCheck.Source

/-! ## Texts -/

/-- The characters of a text in which every line ends in a line feed: a carriage return, with or
without a line feed behind it, becomes one. The characters in `read` stand in front, latest
first. -/
def unifyLinesAfter (read : List Char) : List Char → List Char
  | [] => read.reverse
  | '\r' :: '\n' :: cs => unifyLinesAfter ('\n' :: read) cs
  | '\r' :: cs => unifyLinesAfter ('\n' :: read) cs
  | c :: cs => unifyLinesAfter (c :: read) cs

/-- A text with every line ended by a line feed. -/
def unifyLines (cs : List Char) : List Char :=
  unifyLinesAfter [] cs

/-! ## Files -/

/-- Why no text can be had. -/
inductive Fault where
  /-- The name is not that of a program. -/
  | wrongSuffix
  /-- The name holds the character that ends a name. -/
  | nullInName
  | missing (path : String)
  | notFolder (path : String)
  | folder (path : String)
  | nameTooLong (path : String)
  | undecodable (fault : Text.Utf8.Fault)
  deriving DecidableEq, Repr

/-- How the names of programs end. -/
def suffix : String := ".qt"

/-- Why bytes are not UTF-8. -/
def reasonText : Text.Utf8.Reason → String
  | .invalidStart => "invalid start byte"
  | .invalidContinuation => "invalid continuation byte"
  | .unexpectedEnd => "unexpected end of data"

/-- Where bytes are not UTF-8, and why. A single byte is shown, and several are counted. -/
def decodingMessage (f : Text.Utf8.Fault) : String :=
  let place :=
    if f.stop = f.start + 1 then
      "byte 0x" ++ String.ofList (Text.hexDigits 2 f.lead) ++ " in position " ++ toString f.start
    else "bytes in position " ++ toString f.start ++ "-" ++ toString (f.stop - 1)
  "'utf-8' codec can't decode " ++ place ++ ": " ++ reasonText f.reason

/-- The message of a fault of the file system. -/
def fileMessage (number : Nat) (what path : String) : String :=
  "[Errno " ++ toString number ++ "] " ++ what ++ ": " ++ Text.quoted path

/-- The message of a fault. -/
def Fault.message : Fault → String
  | wrongSuffix => "Only " ++ suffix ++ " files are supported."
  | nullInName => "embedded null byte"
  | missing path => fileMessage 2 "No such file or directory" path
  | notFolder path => fileMessage 20 "Not a directory" path
  | folder path => fileMessage 21 "Is a directory" path
  | nameTooLong path => fileMessage 36 "File name too long" path
  | undecodable fault => decodingMessage fault

/-- The text that the bytes of a file hold. -/
def textOfBytes (bytes : List Nat) : Except Fault String :=
  match Text.Utf8.decode bytes with
  | .ok cs => .ok (String.ofList (unifyLines cs))
  | .error fault => .error (.undecodable fault)

/-- What a path leads to. -/
inductive Entry where
  | file (bytes : List Nat)
  | folder

/-- A folder with all that is in it, each under the parts of the path that leads to it. -/
structure Folder where
  entries : List (List String × Entry)

/-- What is in a folder under the given parts. A folder that holds something need not be listed. -/
def Folder.entry? (folder : Folder) (parts : List String) : Option Entry :=
  match folder.entries.lookup parts with
  | some entry => some entry
  | none => if folder.entries.any (parts.isPrefixOf ·.1) then some .folder else none

/-- The greatest number of bytes of a part of a path. -/
def partLimit : Nat := 255

/-- The greatest number of bytes of a path. -/
def pathLimit : Nat := 4095

/-- The parts of a path. Empty parts and single dots lead nowhere. -/
def pathParts (path : String) : List String :=
  (path.splitOn "/").filter fun part => part != "" && part != "."

/-- Where the parts of a path have led: to a folder inside the one that the path starts in, or out
of it, where nothing is known to be. -/
inductive Place where
  | inside (parts : List String)
  | outside
  deriving DecidableEq, Repr

/-- The place that two dots lead to. -/
def Place.parent : Place → Place
  | inside [] | outside => outside
  | inside parts => inside parts.dropLast

/-- The bytes of the file at a path, of which the given parts are still to be followed. -/
def Folder.follow (folder : Folder) (path : String) :
    Place → List String → Except Fault (List Nat)
  | _, [] => .error (.folder path)
  | place, part :: rest =>
    if partLimit < part.utf8ByteSize then .error (.nameTooLong path)
    else if part = ".." then folder.follow path place.parent rest
    else
      match place with
      | .outside => .error (.missing path)
      | .inside parts =>
        match folder.entry? (parts ++ [part]), rest with
        | none, _ => .error (.missing path)
        | some (.file bytes), [] => .ok bytes
        | some (.file _), _ :: _ => .error (.notFolder path)
        | some .folder, _ => folder.follow path (.inside (parts ++ [part])) rest

/-- The bytes of the file at a path, which starts in the folder unless it starts with a slash. -/
def Folder.bytes (folder : Folder) (path : String) : Except Fault (List Nat) :=
  if path.contains '\x00' then .error .nullInName
  else if pathLimit < path.utf8ByteSize then .error (.nameTooLong path)
  else folder.follow path (if path.startsWith "/" then .outside else .inside []) (pathParts path)

end ScriptCheck.Source
