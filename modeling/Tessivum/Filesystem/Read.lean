/-
Tessivum.Filesystem.Read — the pages of the read tool (`ReadFile::run` of
`src/builtin_tools/model_tools.rs`, behind the reading of the file).

A page is cut by the number of its lines and by their bytes, and its footer
names the offset to go on at.
-/
import Tessivum.Library.Bytes
import Tessivum.Protocol.Message

namespace Tessivum.Filesystem

open Library Protocol List

def readLimit : Nat := 2000

def readMaxLineLength : Nat := 2000

/-! ## A page -/

def lines (text : String) : List String :=
  (Library.lines text.toList).map String.ofList

def truncateChars (value : String) (max : Nat) : String :=
  if value.length ≤ max then value
  else String.ofList (value.toList.take max) ++ s!"... (line truncated to {max} chars)"

structure ReadLine where
  number : Nat
  text : String
  deriving DecidableEq, Repr

inductive Footer
  | capped (offset endLine : Nat)
  | showing (offset endLine total : Nat)
  | endOfFile (total : Nat)
  deriving DecidableEq, Repr

def Footer.text : Footer → String
  | capped offset endLine =>
    let next := endLine + 1
    s!"(Output capped. Showing lines {offset}-{endLine}. Use offset={next} to continue.)"
  | showing offset endLine total =>
    let next := endLine + 1
    s!"(Showing lines {offset}-{endLine} of {total}. Use offset={next} to continue.)"
  | endOfFile total => s!"(End of file - total {total} lines)"

def Footer.next : Footer → Option Nat
  | capped _ endLine => some (endLine + 1)
  | showing _ endLine _ => some (endLine + 1)
  | endOfFile _ => none

structure ReadPage where
  offset : Nat
  lines : List ReadLine
  totalLines : Nat
  truncated : Bool
  footer : Footer
  deriving DecidableEq, Repr

def ReadPage.text (page : ReadPage) (display : String) : String :=
  let footer := page.footer.text
  let rows := page.lines.map fun line => toString line.number ++ ": " ++ line.text
  let body := if page.lines = [] then footer else "\n".intercalate rows ++ "\n\n" ++ footer
  s!"<path>{display}</path>\n<type>file</type>\n<content>\n{body}\n</content>"

/-- What the loop over the lines leaves. -/
structure Filled where
  lines : List ReadLine
  truncated : Bool
  truncatedByBytes : Bool

/-- The bytes a line adds to the page, with the newline before it. -/
def addedBytes (shown : Nat) (line : String) : Nat :=
  line.utf8ByteSize + if shown = 0 then 0 else 1

/-- The loop, from the line at `index` on, with `shown` lines in `returnedBytes` bytes. -/
def fill (maxOutputBytes limit index shown returnedBytes : Nat) : List String → Filled
  | [] => { lines := [], truncated := false, truncatedByBytes := false }
  | line :: rest =>
    if shown = limit then { lines := [], truncated := true, truncatedByBytes := false }
    else
      let line := truncateChars line readMaxLineLength
      let bytes := addedBytes shown line
      if maxOutputBytes < returnedBytes + bytes then
        { lines := [], truncated := true, truncatedByBytes := true }
      else
        let filled := fill maxOutputBytes limit (index + 1) (shown + 1) (returnedBytes + bytes) rest
        { filled with lines := ⟨index + 1, line⟩ :: filled.lines }

/-- `ReadFile::run` on the text of a file. -/
def readFile (maxOutputBytes : Nat) (text : String) (offset limit : Nat) :
    Except TessivumError ReadPage := do
  failIf (readLimit < limit)
    { code := "INVALID_TOOL_ARGUMENTS", message := "limit exceeds the configured read limit"
      phase := "tools"
      details := .object [("path", .string "$.limit"), ("max", .number (.posInt readLimit))] }
  let all := lines text
  let start := offset - 1
  let filled := fill maxOutputBytes limit start 0 0 (all.drop start)
  let endLine := (filled.lines.getLast?.map ReadLine.number).getD start
  return {
    offset
    lines := filled.lines
    totalLines := all.length
    truncated := filled.truncated || decide (start + filled.lines.length < all.length)
    footer :=
      if filled.truncatedByBytes then .capped offset endLine
      else if endLine < all.length then .showing offset endLine all.length
      else .endOfFile all.length }

/-- The pages of the first calls, and the offset the last footer asks for: the first call is at
offset 1, and call `n` has the limit `limits n`. -/
def readWalk (maxOutputBytes : Nat) (text : String) (limits : Nat → Nat) :
    Nat → List ReadPage × Option Nat
  | 0 => ([], some 1)
  | n + 1 =>
    match readWalk maxOutputBytes text limits n with
    | (pages, none) => (pages, none)
    | (pages, some offset) =>
      match readFile maxOutputBytes text offset (limits n) with
      | .ok page => (pages ++ [page], page.footer.next)
      | .error _ => (pages, some offset)

end Tessivum.Filesystem
