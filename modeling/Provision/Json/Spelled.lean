import Provision.Json.Basic
import Provision.Decimal.Text
import Provision.Text.Quoted

/-! # Values in messages

A value in a message is spelled with its strings in quotes; a string that is the whole message part
stands as it is. -/

namespace Provision.Json

def messageWords : Decimal.Words := ⟨"nan", "inf"⟩

mutual

def spelled : Json → String
  | .null => "None"
  | .bool b => if b then "True" else "False"
  | .int n => Decimal.intText n
  | .float x => Decimal.floatText messageWords x
  | .str s => quoted s
  | .arr items => "[" ++ ", ".intercalate (spelledItems items) ++ "]"
  | .obj members => "\x7b" ++ ", ".intercalate (spelledMembers members) ++ "\x7d"

def spelledItems : List Json → List String
  | [] => []
  | v :: vs => spelled v :: spelledItems vs

def spelledMembers : List (String × Json) → List String
  | [] => []
  | (k, v) :: ms => (quoted k ++ ": " ++ spelled v) :: spelledMembers ms

end

def shown : Json → String
  | .str s => s
  | v => spelled v

end Provision.Json
