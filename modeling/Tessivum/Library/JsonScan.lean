/-
Tessivum.Library.JsonScan — a scanner for the bracket structure of JSON
texts.

The scanner follows brackets and string literals and nothing else: every
JSON object is accepted, and so are many texts that are not JSON. That
is enough to see that two objects cannot be joined: after any text that
opens an object, another object leaves the scanner inside the first one
or breaks it off (`not_scansObject_append`).

The module names nothing of the repository.
-/
import Tessivum.Library.Bytes

namespace Tessivum.Library

/-! ## Bytes -/

def openBrace : UInt8 := 123
def quote : UInt8 := 34
def backslash : UInt8 := 92

def isJsonSpace (b : UInt8) : Bool := b = 32 || b = 9 || b = 10 || b = 13

/-- `{` or `[`. -/
def isOpening (b : UInt8) : Bool := b = openBrace || b = 91

/-- `}` or `]`. -/
def isClosing (b : UInt8) : Bool := b = 125 || b = 93

/-- `,` or `:`. -/
def isSeparator (b : UInt8) : Bool := b = 44 || b = 58

/-! ## The scanner -/

/-- Where the scanner is inside a bracket: between tokens, in a string,
after a backslash in a string, or after a string. -/
inductive ScanMode where
  | plain | quoted | escaped | closed
  deriving DecidableEq, Repr

/-- `inside depth mode` is inside `depth + 1` brackets. -/
inductive ScanState where
  | inside (depth : Nat) (mode : ScanMode)
  | done
  | broken
  deriving DecidableEq, Repr

/-- A closing bracket. -/
def closeBracket : Nat → ScanState
  | 0 => .done
  | depth + 1 => .inside depth .plain

/-- One byte. After a string literal only a separator or a closing
bracket may follow, and after the outermost bracket only blanks. -/
def scanByte : ScanState → UInt8 → ScanState
  | .inside depth .plain, b =>
    if b = quote then .inside depth .quoted
    else if isOpening b then .inside (depth + 1) .plain
    else if isClosing b then closeBracket depth
    else .inside depth .plain
  | .inside depth .quoted, b =>
    if b = quote then .inside depth .closed
    else if b = backslash then .inside depth .escaped
    else .inside depth .quoted
  | .inside depth .escaped, _ => .inside depth .quoted
  | .inside depth .closed, b =>
    if isJsonSpace b then .inside depth .closed
    else if isSeparator b then .inside depth .plain
    else if isClosing b then closeBracket depth
    else .broken
  | .done, b => if isJsonSpace b then .done else .broken
  | .broken, _ => .broken

def scan (state : ScanState) (bytes : Bytes) : ScanState := bytes.foldl scanByte state

@[simp] theorem scan_cons (state : ScanState) (b : UInt8) (bytes : Bytes) :
    scan state (b :: bytes) = scan (scanByte state b) bytes := rfl

theorem scan_append (state : ScanState) (xs ys : Bytes) :
    scan state (xs ++ ys) = scan (scan state xs) ys := List.foldl_append

/-- A text that opens an object and closes it at its end. -/
def ScansObject (bytes : Bytes) : Prop :=
  bytes.head? = some openBrace ∧ scan (.inside 0 .plain) bytes.tail = .done

instance (bytes : Bytes) : Decidable (ScansObject bytes) := inferInstanceAs (Decidable (_ ∧ _))

theorem scan_broken (bytes : Bytes) : scan .broken bytes = .broken := by
  induction bytes with
  | nil => rfl
  | cons b rest ih => exact ih

/-! ## Joined texts -/

variable {b : UInt8}

/-- Blanks between tokens change nothing. -/
theorem scanByte_plain_space (h : isJsonSpace b = true) (depth : Nat) :
    scanByte (.inside depth .plain) b = .inside depth .plain := by
  simp only [isJsonSpace, Bool.or_eq_true, decide_eq_true_eq] at h
  rcases h with ((rfl | rfl) | rfl) | rfl <;> rfl

/-- What follows a finished text is blank. -/
theorem scan_plain_of_done (depth : Nat) : ∀ {bytes : Bytes}, scan .done bytes = .done →
    scan (.inside depth .plain) bytes = .inside depth .plain
  | [], _ => rfl
  | b :: rest, h => by
    rw [scan_cons] at h ⊢
    by_cases hspace : isJsonSpace b = true
    · simp only [scanByte, hspace, if_true] at h
      rw [scanByte_plain_space hspace]
      exact scan_plain_of_done depth h
    · simp only [scanByte, hspace, if_false, Bool.false_eq_true] at h
      rw [scan_broken] at h
      cases h

/-- A text that closes all its brackets closes as many inside others. -/
theorem scan_shift (outer : Nat) : ∀ {bytes : Bytes} {depth : Nat} {mode : ScanMode},
    scan (.inside depth mode) bytes = .done →
      scan (.inside (depth + (outer + 1)) mode) bytes = .inside outer .plain := by
  intro bytes
  induction bytes with
  | nil => intro depth mode h; cases h
  | cons b rest ih =>
    intro depth mode h
    -- a closing bracket either ends the text or leaves one bracket
    have hclose : scan (closeBracket depth) rest = .done →
        scan (closeBracket (depth + (outer + 1))) rest = .inside outer .plain := by
      intro hdone
      cases depth with
      | zero =>
        rw [Nat.zero_add]
        exact scan_plain_of_done outer hdone
      | succ depth =>
        rw [Nat.succ_add]
        exact ih hdone
    rw [scan_cons] at h ⊢
    cases mode with
    | plain =>
      simp only [scanByte] at h ⊢
      split at h
      · rw [if_pos ‹_›]; exact ih h
      rw [if_neg ‹_›]
      split at h
      · rw [if_pos ‹_›, Nat.add_right_comm]; exact ih h
      rw [if_neg ‹_›]
      split at h
      · rw [if_pos ‹_›]; exact hclose h
      · rw [if_neg ‹_›]; exact ih h
    | quoted =>
      simp only [scanByte] at h ⊢
      split at h
      · rw [if_pos ‹_›]; exact ih h
      rw [if_neg ‹_›]
      split at h
      · rw [if_pos ‹_›]; exact ih h
      · rw [if_neg ‹_›]; exact ih h
    | escaped => exact ih h
    | closed =>
      simp only [scanByte] at h ⊢
      split at h
      · rw [if_pos ‹_›]; exact ih h
      rw [if_neg ‹_›]
      split at h
      · rw [if_pos ‹_›]; exact ih h
      rw [if_neg ‹_›]
      split at h
      · rw [if_pos ‹_›]; exact hclose h
      · rw [scan_broken] at h
        cases h

/-- A byte that may begin the name of an object's first field, as no
byte after a string literal may. -/
def startsName (b : UInt8) : Bool := !isJsonSpace b && !isSeparator b && !isClosing b

theorem scan_closed_name (h : startsName b = true) (depth : Nat) (rest : Bytes) :
    scan (.inside depth .closed) (b :: rest) = .broken := by
  simp only [startsName, Bool.and_eq_true, Bool.not_eq_true'] at h
  obtain ⟨⟨hspace, hseparator⟩, hclosing⟩ := h
  rw [scan_cons, scanByte, hspace, hseparator, hclosing]
  exact scan_broken rest

/-- An object after the opening of another is not the end of it. -/
theorem not_scansObject_append (before : Bytes) {rest : Bytes} (hname : startsName b = true)
    (hobject : ScansObject (openBrace :: quote :: b :: rest)) :
    ¬ ScansObject (openBrace :: before ++ (openBrace :: quote :: b :: rest)) := by
  have hdone : scan (.inside 0 .plain) (quote :: b :: rest) = .done := hobject.2
  have hbroken : ∀ depth, scan (.inside depth .quoted) (quote :: b :: rest) = .broken :=
    fun depth => scan_closed_name hname depth rest
  rintro ⟨_, hjoined⟩
  rw [List.cons_append, List.tail_cons, scan_append, scan_cons] at hjoined
  cases hstate : scan (.inside 0 .plain) before with
  | done =>
    rw [hstate, show scanByte .done openBrace = .broken from rfl, scan_broken] at hjoined
    cases hjoined
  | broken =>
    rw [hstate, show scanByte .broken openBrace = .broken from rfl, scan_broken] at hjoined
    cases hjoined
  | inside depth mode =>
    rw [hstate] at hjoined
    cases mode with
    | plain =>
      have hshift := scan_shift depth hdone
      rw [Nat.zero_add] at hshift
      rw [show scanByte (.inside depth .plain) openBrace = .inside (depth + 1) .plain from rfl,
        hshift] at hjoined
      cases hjoined
    | quoted =>
      rw [show scanByte (.inside depth .quoted) openBrace = .inside depth .quoted from rfl,
        hbroken] at hjoined
      cases hjoined
    | escaped =>
      rw [show scanByte (.inside depth .escaped) openBrace = .inside depth .quoted from rfl,
        hbroken] at hjoined
      cases hjoined
    | closed =>
      rw [show scanByte (.inside depth .closed) openBrace = .broken from rfl,
        scan_broken] at hjoined
      cases hjoined

example : ScansObject (utf8 "\x7b\"a\":[1,\"]\"]\x7d") := by decide

end Tessivum.Library
