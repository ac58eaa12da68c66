/-
Tessivum.Compaction.MessageText — a message as `serde_json::to_string` writes it.

Fields stand in the order the types of `src/protocol.rs` declare them, the tag
of a block or a source first, and an absent optional field is left out.

The text of a JSON value inside a message (an image's attachment, a model's
replay state) is the parameter `valueText`.
-/
import Tessivum.Library.Bytes
import Tessivum.Library.Cuts
import Tessivum.Protocol.Wire

namespace Tessivum.Compaction

open Library Protocol

def stringField (before : Char) (key value : String) : List Char :=
  jsonField before key (jsonString value.toList)

/-- `skip_serializing_if = "Option::is_none"`. -/
def skipNoneField {α : Type} (key : String) (write : α → List Char) : Option α → List Char
  | none => []
  | some value => jsonField ',' key (write value)

def jsonBool : Bool → List Char
  | true => "true".toList
  | false => "false".toList

def quoted (value : String) : List Char := jsonString value.toList

section

variable (valueText : Value → String)

mutual
def blockText : ContentBlock → List Char
  | .text text => stringField '\x7b' "type" "text" ++ stringField ',' "text" text ++ ['\x7d']
  | .reasoning text =>
    stringField '\x7b' "type" "reasoning" ++ stringField ',' "text" text ++ ['\x7d']
  | .image attachment => stringField '\x7b' "type" "image"
      ++ jsonField ',' "attachment" (valueText attachment).toList ++ ['\x7d']
  | .toolCall id name arguments => stringField '\x7b' "type" "tool-call"
      ++ stringField ',' "id" id.asStr ++ stringField ',' "name" name
      ++ stringField ',' "arguments" arguments ++ ['\x7d']
  | .toolResult toolCallId content isError => stringField '\x7b' "type" "tool-result"
      ++ stringField ',' "toolCallId" toolCallId.asStr
      ++ jsonField ',' "content" ('[' :: (blocksText content ++ [']']))
      ++ skipNoneField "isError" jsonBool isError ++ ['\x7d']

def blocksText : List ContentBlock → List Char
  | [] => []
  | [block] => blockText block
  | block :: rest => blockText block ++ ',' :: blocksText rest
end

def sectionsText : List ContextSnapshotSection → List Char
  | [] => []
  | [s] => stringField '\x7b' "name" s.name ++ stringField ',' "text" s.text ++ ['\x7d']
  | s :: rest => stringField '\x7b' "name" s.name ++ stringField ',' "text" s.text
      ++ '\x7d' :: ',' :: sectionsText rest

def sourceText : MessageSource → List Char
  | .goal goalId revision round => stringField '\x7b' "kind" "goal"
      ++ stringField ',' "goalId" goalId ++ jsonField ',' "revision" (jsonNumber revision)
      ++ jsonField ',' "round" (jsonNumber round) ++ ['\x7d']
  | .user clientTimeZone => stringField '\x7b' "kind" "user"
      ++ skipNoneField "clientTimeZone" quoted clientTimeZone ++ ['\x7d']
  | .plugin plugin compactionId form sections summary => stringField '\x7b' "kind" "plugin"
      ++ stringField ',' "plugin" plugin ++ skipNoneField "compactionId" quoted compactionId
      ++ skipNoneField "form" (fun form => quoted (Wire.contextFormName form)) form
      ++ skipNoneField "sections" (fun sections => '[' :: (sectionsText sections ++ [']'])) sections
      ++ skipNoneField "summary" quoted summary ++ ['\x7d']
  | .skillInvocation name form => stringField '\x7b' "kind" "skill-invocation"
      ++ stringField ',' "name" name ++ stringField ',' "form" (Wire.contextFormName form)
      ++ ['\x7d']
  | .model provider model replayState => stringField '\x7b' "kind" "model"
      ++ stringField ',' "provider" provider ++ stringField ',' "model" model
      ++ skipNoneField "replayState" (fun state => (valueText state).toList) replayState ++ ['\x7d']
  | .tool callId => stringField '\x7b' "kind" "tool" ++ stringField ',' "callId" callId.asStr
      ++ ['\x7d']

/-- The characters of `serde_json::to_string` of a message. -/
def messageChars (m : Message) : List Char :=
  stringField '\x7b' "id" m.id.asStr ++ stringField ',' "role" (Wire.roleName m.role)
    ++ jsonField ',' "content" ('[' :: (blocksText valueText m.content ++ [']']))
    ++ jsonField ',' "source" (sourceText valueText m.source) ++ ['\x7d']

/-- `serde_json::to_string` of a message. -/
def messageText (m : Message) : String := String.ofList (messageChars valueText m)

end

/-! ## The length of an escaped string -/

/-- The cost of one character in the budget of a pruned tool result. -/
def escapeCost (c : Char) : Nat :=
  if c = '"' ∨ c = '\\' ∨ c = '\n' ∨ c = '\r' ∨ c = '\t' ∨ c.toNat = 8 ∨ c.toNat = 12 then 2
  else if c.toNat < 0x20 then 6
  else 1

theorem toNat_eq_iff {c d : Char} : c.toNat = d.toNat ↔ c = d :=
  ⟨fun h => Char.toNat_inj.mp h, fun h => by rw [h]⟩

theorem length_jsonChar (c : Char) : (jsonChar c).length = escapeCost c := by
  have htab : c.toNat = 9 ↔ c = '\t' := toNat_eq_iff (d := '\t')
  have hnewline : c.toNat = 10 ↔ c = '\n' := toNat_eq_iff (d := '\n')
  have hreturn : c.toNat = 13 ↔ c = '\r' := toNat_eq_iff (d := '\r')
  unfold jsonChar escapeCost
  simp only [htab, hnewline, hreturn]
  split_ifs <;> simp_all

theorem length_jsonString (cs : List Char) :
    (jsonString cs).length = totalCost escapeCost cs + 2 := by
  have hchars : (cs.flatMap jsonChar).length = totalCost escapeCost cs := by
    induction cs with
    | nil => rfl
    | cons c rest ih => rw [flatMap_cons, length_append, ih, length_jsonChar,
        totalCost_cons]
  rw [jsonString, length_cons, length_append, hchars]
  rfl

end Tessivum.Compaction
