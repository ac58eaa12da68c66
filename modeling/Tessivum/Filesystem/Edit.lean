/-
Tessivum.Filesystem.Edit — line endings and literal edits of one text
(`src/filesystem.rs`).

`normalizeLf` is the form in which every text is compared and written.

`match_indices`, `replace` and `replacen` are those of the standard library: a
match is looked for behind the end of the last one. Positions are counted in
characters; a pattern of whole characters only stands at the boundary of one.
-/
import Tessivum.Library.Search
import Tessivum.Protocol.Message

namespace Tessivum.Filesystem

open Library Library.Search Protocol

def fsError (code message : String) (details : Value) : TessivumError :=
  { code := code, message := message, phase := "filesystem", details := details }

/-! ## Texts -/

/-- `str::match_indices`: where the matches start. -/
def matchIndices (text pattern : String) : List Nat :=
  scan pattern.toList 0 0 text.toList

variable (text pattern new : String)

/-- The loop of `str::replace` and `str::replacen` over some matches. -/
def replaceAt (starts : List Nat) : String :=
  String.ofList (splice text.toList new.toList pattern.toList.length 0 starts)

def replace : String :=
  replaceAt text pattern new (matchIndices text pattern)

def replacen (count : Nat) : String :=
  replaceAt text pattern new ((matchIndices text pattern).take count)

def normalizeLf (text : String) : String :=
  replace (replace text "\r\n" "\n") "\r" "\n"

/-! ## Edits -/

/-- `FsVersion`: the token of an observation. -/
structure FsVersion where
  bytes : List UInt8
  deriving DecidableEq, Repr

structure FsLiteralEdit where
  expected : String
  replacement : String
  replaceIfVersion : Option FsVersion
  deriving DecidableEq, Repr

/-- The texts before and after an edit. -/
structure EditTexts where
  before : String
  after : String
  deriving DecidableEq, Repr

/-- The edit of `content`, the text of the file at `path`. -/
def editTexts (path : String) (edit : FsLiteralEdit) (replaceAll : Bool) (content : String) :
    Except TessivumError EditTexts := do
  let before := normalizeLf content
  let expected := normalizeLf edit.expected
  let replacement := normalizeLf edit.replacement
  failIf (expected = "")
    (fsError "FS_AMBIGUOUS_EDIT" "literal edit text must not be empty"
      (.object [("path", .string path)]))
  let found := (matchIndices before expected).length
  failIf (found = 0)
    (fsError "FS_EDIT_NOT_FOUND" "literal edit text was not found"
      (.object [("path", .string path)]))
  failIf (replaceAll = false ∧ found ≠ 1)
    (fsError "FS_AMBIGUOUS_EDIT" "literal edit text matched more than once"
      (.object [("matches", .ofNat found), ("path", .string path)]))
  let after :=
    if replaceAll then replace before expected replacement
    else replacen before expected replacement 1
  return { before := before, after := after }

end Tessivum.Filesystem
