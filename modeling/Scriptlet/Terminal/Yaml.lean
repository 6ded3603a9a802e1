import Scriptlet.Number.Reading
import Scriptlet.Text.Utf8
/-!
A reader of YAML for the program at a terminal, which knows the part of it that configurations are
written in: block mappings, sequences, plain and quoted scalars, empty values, comments, and mappings
and sequences in braces and brackets on one line. Every node knows its line. The items of a sequence
are read but not kept, since no setting is a sequence. Configurations are loaded with any reader, and
nothing is proved of this one.
-/
namespace Scriptlet.Terminal

inductive ScalarTag where
  | null
  | boolean
  | integer
  | float
  | string
  deriving DecidableEq, Repr

def ScalarTag.text : ScalarTag → Text
  | .null => utf8 "!!null"
  | .boolean => utf8 "!!bool"
  | .integer => utf8 "!!int"
  | .float => utf8 "!!float"
  | .string => utf8 "!!str"

inductive Yaml where
  | scalar (tag : ScalarTag) (text : Text) (line : Nat)
  | sequence (line : Nat)
  | mapping (entries : List (Text × Nat × Yaml)) (line : Nat)
  deriving Inhabited

namespace Yaml

def isInteger (text : Text) : Bool :=
  let digits :=
    match text with
    | 43 :: rest | 45 :: rest => rest
    | rest => rest
  match digits with
  | [] => false
  | [digit] => Text.isDigit digit
  | 48 :: 120 :: rest =>
    !rest.isEmpty && rest.all fun b =>
      Text.isDigit b || (97 ≤ b && b ≤ 102) || (65 ≤ b && b ≤ 70) || b == 95
  | 48 :: 111 :: rest => !rest.isEmpty && rest.all fun b => 48 ≤ b && b ≤ 55 || b == 95
  | 48 :: 98 :: rest => !rest.isEmpty && rest.all fun b => b == 48 || b == 49 || b == 95
  | 48 :: rest => rest.all fun b => 48 ≤ b && b ≤ 55 || b == 95
  | first :: rest => Text.isDigit first && rest.all fun b => Text.isDigit b || b == 95

def isFloat (text : Text) : Bool :=
  let unsigned :=
    match text with
    | 43 :: rest | 45 :: rest => rest
    | rest => rest
  (Number.readDecimal? unsigned).isSome
    || [utf8 ".inf", utf8 ".Inf", utf8 ".INF"].contains unsigned
    || [utf8 ".nan", utf8 ".NaN", utf8 ".NAN"].contains text

def nullNames : List Text := [[], utf8 "~", utf8 "null", utf8 "Null", utf8 "NULL"]

def booleanNames : List Text :=
  [utf8 "true", utf8 "True", utf8 "TRUE", utf8 "false", utf8 "False", utf8 "FALSE"]

def plainTag (text : Text) : ScalarTag :=
  if nullNames.contains text then .null
  else if booleanNames.contains text then .boolean
  else if isInteger text then .integer
  else if isFloat text then .float
  else .string

def plain (text : Text) (line : Nat) : Yaml := .scalar (plainTag text) text line

/-- A line that holds more than a comment. -/
structure Line where
  number : Nat
  indent : Nat
  content : Text

def isBlank (byte : UInt8) : Bool := byte == 32 || byte == 9

def trimStart (text : Text) : Text := text.dropWhile isBlank

def trimEnd (text : Text) : Text := (text.reverse.dropWhile isBlank).reverse

def contentLines : Nat → List Text → List Line
  | _, [] => []
  | number, text :: rest =>
    let text := if text.getLast? = some 13 then text.dropLast else text
    let content := trimEnd (text.dropWhile (· == 32))
    if content.isEmpty || (trimStart content).head? = some 35 then contentLines (number + 1) rest
    else
      ⟨number, (text.takeWhile (· == 32)).length, content⟩ :: contentLines (number + 1) rest

/-- The wording of a fault in the text of a document. The first line is not named. -/
def syntaxFault (line : Nat) (problem : String) : Text :=
  utf8 "yaml: " ++ (if line = 0 then [] else utf8 "line " ++ Text.ofNat line ++ utf8 ": ")
    ++ utf8 problem

/-- The line by which a fault of single characters is named. -/
def characterLine (number : Nat) : Nat := if number = 1 then 0 else number

def singleQuoted : Text → Text × Text
  | [] => ([], [])
  | 39 :: 39 :: rest =>
    let (value, after) := singleQuoted rest
    (39 :: value, after)
  | 39 :: rest => ([], rest)
  | byte :: rest =>
    let (value, after) := singleQuoted rest
    (byte :: value, after)

def escapeBytes (letter : UInt8) : Text :=
  if letter == 110 then [10]
  else if letter == 116 then [9]
  else if letter == 114 then [13]
  else if letter == 48 then [0]
  else if letter == 97 then [7]
  else if letter == 98 then [8]
  else if letter == 101 then [27]
  else if letter == 102 then [12]
  else if letter == 118 then [11]
  else if letter == 78 then Text.encode 0x85
  else if letter == 95 then Text.encode 0xA0
  else if letter == 76 then Text.encode 0x2028
  else if letter == 80 then Text.encode 0x2029
  else [letter]

def hexValue (byte : UInt8) : Nat :=
  if 48 ≤ byte && byte ≤ 57 then byte.toNat - 48
  else if 97 ≤ byte && byte ≤ 102 then byte.toNat - 87
  else if 65 ≤ byte && byte ≤ 70 then byte.toNat - 55
  else 0

def hexNumber (digits : Text) : Nat := digits.foldl (fun n b => 16 * n + hexValue b) 0

def doubleQuoted : Text → Text × Text
  | [] => ([], [])
  | 34 :: rest => ([], rest)
  | 92 :: 120 :: a :: b :: rest =>
    let (value, after) := doubleQuoted rest
    (Text.encode (hexNumber [a, b]) ++ value, after)
  | 92 :: 117 :: a :: b :: c :: d :: rest =>
    let (value, after) := doubleQuoted rest
    (Text.encode (hexNumber [a, b, c, d]) ++ value, after)
  | 92 :: letter :: rest =>
    let (value, after) := doubleQuoted rest
    (escapeBytes letter ++ value, after)
  | byte :: rest =>
    let (value, after) := doubleQuoted rest
    (byte :: value, after)

def quoted? (text : Text) : Option (Text × Text) :=
  match text with
  | 39 :: rest => some (singleQuoted rest)
  | 34 :: rest => some (doubleQuoted rest)
  | _ => none

def untilComment : Text → Text
  | [] => []
  | 32 :: 35 :: _ => []
  | 9 :: 35 :: _ => []
  | byte :: rest => byte :: untilComment rest

def endsKey : Text → Bool
  | [] => true
  | byte :: _ => isBlank byte

def splitPlainKey? : Text → Option (Text × Text)
  | [] => none
  | 32 :: 35 :: _ => none
  | 9 :: 35 :: _ => none
  | byte :: rest =>
    if byte = 58 && endsKey rest then some ([], rest)
    else (splitPlainKey? rest).map fun (key, after) => (byte :: key, after)

def splitKey? (content : Text) : Option (Text × Text) :=
  match quoted? content with
  | some (key, after) =>
    match trimStart after with
    | 58 :: rest => if endsKey rest then some (key, rest) else none
    | _ => none
  | none => (splitPlainKey? content).map fun (key, rest) => (trimEnd key, rest)

structure Place where
  line : Nat
  last : Nat

def endsFlowScalar (byte : UInt8) : Bool := byte == 44 || byte == 93 || byte == 125

def missingNode (place : Place) : Text :=
  syntaxFault place.last "did not find expected node content"

def unclosed (place : Place) (problem : String) : Text :=
  syntaxFault (if place.line = 1 then place.last else place.line - 1) problem

mutual

def flowNode (place : Place) : Nat → Text → Except Text (Yaml × Text)
  | 0, _ => .error (missingNode place)
  | depth + 1, text =>
    match trimStart text with
    | [] => .error (missingNode place)
    | 91 :: rest => flowItems place depth rest
    | 123 :: rest => flowEntries place depth [] rest
    | rest =>
      match quoted? rest with
      | some (value, after) => .ok (.scalar .string value place.line, after)
      | none =>
        let scalar := trimEnd (rest.takeWhile fun b => !endsFlowScalar b)
        .ok (plain scalar place.line, rest.dropWhile fun b => !endsFlowScalar b)

def flowItems (place : Place) : Nat → Text → Except Text (Yaml × Text)
  | 0, _ => .error (missingNode place)
  | depth + 1, text =>
    match trimStart text with
    | 93 :: rest => .ok (.sequence place.line, rest)
    | rest => do
      let (_, after) ← flowNode place depth rest
      match trimStart after with
      | 93 :: rest => .ok (.sequence place.line, rest)
      | 44 :: rest => flowItems place depth rest
      | _ => .error (unclosed place "did not find expected ',' or ']'")

def flowEntries (place : Place) : Nat → List (Text × Nat × Yaml) → Text →
    Except Text (Yaml × Text)
  | 0, _, _ => .error (missingNode place)
  | depth + 1, known, text =>
    match trimStart text with
    | [] => .error (missingNode place)
    | 125 :: rest => .ok (.mapping known.reverse place.line, rest)
    | rest =>
      let (key, after) :=
        match quoted? rest with
        | some (key, after) => (key, trimStart after)
        | none =>
          (trimEnd (rest.takeWhile fun b => b != 58 && !endsFlowScalar b),
            rest.dropWhile fun b => b != 58 && !endsFlowScalar b)
      do
        let (value, after) ←
          match after with
          | 58 :: more =>
            match trimStart more with
            | 44 :: _ | 125 :: _ => .ok (plain [] place.line, trimStart more)
            | more => flowNode place depth more
          | after => .ok (plain [] place.line, after)
        let entries := (key, place.line, value) :: known
        match trimStart after with
        | 125 :: rest => .ok (.mapping entries.reverse place.line, rest)
        | 44 :: rest => flowEntries place depth entries rest
        | _ => .error (unclosed place "did not find expected ',' or '\x7d'")

end

def inlineNode? (place : Place) (text : Text) : Except Text (Option Yaml) :=
  let text := trimStart text
  match text with
  | [] => .ok none
  | 35 :: _ => .ok none
  | first :: _ =>
    if first == 91 || first == 123 then do
      let (node, _) ← flowNode place (2 * text.length + 2) text
      return some node
    else
      match quoted? text with
      | some (value, _) => .ok (some (.scalar .string value place.line))
      | none =>
        let value := trimEnd (untilComment text)
        if (splitPlainKey? value).isSome then
          .error (syntaxFault (characterLine place.line)
            "mapping values are not allowed in this context")
        else .ok (some (plain value place.line))

def isItem (line : Line) : Bool :=
  match line.content with
  | [45] => true
  | 45 :: byte :: _ => isBlank byte
  | _ => false

def dropItems (indent : Nat) (lines : List Line) : List Line :=
  lines.dropWhile fun line => indent < line.indent || (line.indent == indent && isItem line)

mutual

def blockNode (last : Nat) : Nat → Line → List Line → Except Text (Yaml × List Line)
  | 0, first, rest => .ok (.sequence first.number, rest)
  | depth + 1, first, rest =>
    if first.content.head? = some 9 then
      .error (syntaxFault (characterLine first.number)
        "found character that cannot start any token")
    else if isItem first then .ok (.sequence first.number, dropItems first.indent rest)
    else if (splitKey? first.content).isSome then do
      let (entries, rest) ← blockEntries last depth first.indent (first :: rest)
      return (.mapping entries first.number, rest)
    else do
      let node ← inlineNode? ⟨first.number, last⟩ first.content
      return (node.getD (plain [] first.number), rest)

def blockEntries (last : Nat) : Nat → Nat → List Line →
    Except Text (List (Text × Nat × Yaml) × List Line)
  | 0, _, lines => .ok ([], lines)
  | _, _, [] => .ok ([], [])
  | depth + 1, indent, line :: rest =>
    if line.indent < indent then .ok ([], line :: rest)
    else
      match splitKey? line.content with
      | none =>
        .error (syntaxFault (line.number + 1 - if rest.isEmpty then 0 else 1)
          "could not find expected ':'")
      | some (key, text) => do
        if indent < line.indent then
          .error (syntaxFault (characterLine line.number)
            "mapping values are not allowed in this context")
        else
          let (value, rest) ← do
            match ← inlineNode? ⟨line.number, last⟩ text, rest with
            | some node, rest => .ok (node, rest)
            | none, next :: more =>
              if indent < next.indent || (next.indent == indent && isItem next) then
                blockNode last depth next more
              else .ok (plain [] line.number, next :: more)
            | none, [] => .ok (plain [] line.number, [])
          let (entries, rest) ← blockEntries last depth indent rest
          return ((key, line.number, value) :: entries, rest)

end

def lineCount (text : Text) : Nat :=
  text.count Text.lineFeed
    + if text.getLast? = some Text.lineFeed || text.isEmpty then 0 else 1

def parse (text : Text) : Except Text (Option Yaml) :=
  let lines := contentLines 1 (Text.splitOn Text.lineFeed text)
  let lines :=
    match lines with
    | first :: rest => if first.content = utf8 "---" then rest else lines
    | [] => []
  match lines with
  | [] => .ok none
  | first :: rest => do
    let (node, _) ← blockNode (lineCount text) (2 * lines.length + 2) first rest
    return some node

end Yaml

end Scriptlet.Terminal
