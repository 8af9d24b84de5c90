import FirewallAgent.Yaml.Layout

/-!
The one node that a YAML text holds. An alias of a scalar stands for that scalar; an alias of a
collection is kept as a mere reference. A text may be without any node, and may not have a second
document.
-/
namespace FirewallAgent.Yaml

structure Scalar where
  text : String
  style : ScalarStyle := .plain
  tag : Option String := none
  deriving DecidableEq, Repr

inductive Node where
  | scalar (s : Scalar)
  | sequence (items : List Node)
  | mapping (entries : List (Node × Node))
  | reference

namespace Node

def absent : Node := .scalar ⟨"", .plain, none⟩

def scalar? : Node → Option Scalar
  | .scalar s => some s
  | _ => none

structure Names where
  handles : List (List Char × List Char)
  anchors : List (List Char × Option Scalar) := []
  deriving Repr

def Names.bind (n : Names) (name : Option (List Char)) (s : Option Scalar) : Names :=
  match name with
  | none => n
  | some a => ⟨n.handles, (a, s) :: n.anchors⟩

structure Properties where
  anchor : Option (List Char) := none
  tag : Option (List Char × List Char) := none
  deriving DecidableEq, Repr

def properties : List Token → Properties × List Token
  | .anchor a :: .tag h s :: rest => (⟨some a, some (h, s)⟩, rest)
  | .tag h s :: .anchor a :: rest => (⟨some a, some (h, s)⟩, rest)
  | .anchor a :: rest => (⟨some a, none⟩, rest)
  | .tag h s :: rest => (⟨none, some (h, s)⟩, rest)
  | ts => ({}, ts)

def Names.tag? (n : Names) : Option (List Char × List Char) → Option (Option String)
  | none => some none
  | some ([], s) => some (some (String.ofList s))
  | some (h, s) => (n.handles.lookup h).map fun e => some (String.ofList (e ++ s))

abbrev Parsed := Node × Names × List Token

def isOneOf (ts : List Token) : List Token → Bool
  | [] => false
  | t :: _ => ts.contains t

mutual

/- A node. In `block` context it may open a block; `loose` permits items without indentation. -/
def ofTokens? (fuel : Nat) (block loose : Bool) (n : Names) (ts : List Token) : Option Parsed :=
  match fuel with
  | 0 => none
  | fuel + 1 =>
    match ts with
    | .alias a :: rest =>
      (n.anchors.lookup a).map fun
        | some s => (.scalar s, n, rest)
        | none => (.reference, n, rest)
    | ts => do
      let (p, ts) := properties ts
      let tag ← n.tag? p.tag
      match ts with
      | .scalar style text :: rest =>
        let s : Scalar := ⟨String.ofList text, style, tag⟩
        some (.scalar s, n.bind p.anchor (some s), rest)
      | .openSequence :: rest => flowItems fuel true [] (n.bind p.anchor none) rest
      | .openMapping :: rest => flowEntries fuel true [] (n.bind p.anchor none) rest
      | ts =>
        if loose && isOneOf [.item] ts then looseItems fuel [] (n.bind p.anchor none) ts
        else if block && isOneOf [.blockSequence] ts then
          blockItems fuel [] (n.bind p.anchor none) ts.tail
        else if block && isOneOf [.blockMapping] ts then
          blockEntries fuel [] (n.bind p.anchor none) ts.tail
        else if p.anchor.isSome || p.tag.isSome then
          let s : Scalar := ⟨"", .plain, tag⟩
          some (.scalar s, n.bind p.anchor (some s), ts)
        else none

def optional? (fuel : Nat) (block loose : Bool) (ends : List Token) (n : Names) (ts : List Token) :
    Option Parsed :=
  match fuel with
  | 0 => none
  | fuel + 1 =>
    if isOneOf ends ts then some (absent, n, ts) else ofTokens? fuel block loose n ts

def blockItems (fuel : Nat) (items : List Node) (n : Names) (ts : List Token) : Option Parsed :=
  match fuel with
  | 0 => none
  | fuel + 1 =>
    match ts with
    | .item :: rest => do
      let (x, n, rest) ← optional? fuel true false [.item, .blockEnd] n rest
      blockItems fuel (x :: items) n rest
    | .blockEnd :: rest => some (.sequence items.reverse, n, rest)
    | _ => none

def looseItems (fuel : Nat) (items : List Node) (n : Names) (ts : List Token) : Option Parsed :=
  match fuel with
  | 0 => none
  | fuel + 1 =>
    match ts with
    | .item :: rest => do
      let (x, n, rest) ← optional? fuel true false [.item, .key, .value, .blockEnd] n rest
      looseItems fuel (x :: items) n rest
    | ts => some (.sequence items.reverse, n, ts)

def blockEntries (fuel : Nat) (entries : List (Node × Node)) (n : Names) (ts : List Token) :
    Option Parsed :=
  match fuel with
  | 0 => none
  | fuel + 1 =>
    match ts with
    | .key :: rest => do
      let (k, n, rest) ← optional? fuel true true [.key, .value, .blockEnd] n rest
      let (v, n, rest) ← blockValue fuel n rest
      blockEntries fuel ((k, v) :: entries) n rest
    | .blockEnd :: rest => some (.mapping entries.reverse, n, rest)
    | _ => none

def blockValue (fuel : Nat) (n : Names) (ts : List Token) : Option Parsed :=
  match fuel with
  | 0 => none
  | fuel + 1 =>
    match ts with
    | .value :: rest => optional? fuel true true [.key, .value, .blockEnd] n rest
    | ts => some (absent, n, ts)

def flowItems (fuel : Nat) (first : Bool) (items : List Node) (n : Names) (ts : List Token) :
    Option Parsed :=
  match fuel with
  | 0 => none
  | fuel + 1 =>
    match ts with
    | .closeSequence :: rest => some (.sequence items.reverse, n, rest)
    | ts => do
      let ts ← if first then some ts else if isOneOf [.comma] ts then some ts.tail else none
      match ts with
      | .closeSequence :: rest => some (.sequence items.reverse, n, rest)
      | .key :: rest =>
        let (x, n, rest) ← flowPair fuel n rest
        flowItems fuel false (x :: items) n rest
      | ts =>
        let (x, n, rest) ← ofTokens? fuel false false n ts
        flowItems fuel false (x :: items) n rest

def flowPair (fuel : Nat) (n : Names) (ts : List Token) : Option Parsed :=
  match fuel with
  | 0 => none
  | fuel + 1 => do
    let (k, n, rest) ←
      if isOneOf [.value, .comma, .closeSequence] ts then some (absent, n, ts.tail)
      else ofTokens? fuel false false n ts
    let (v, n, rest) ← flowValue fuel [.comma, .closeSequence] n rest
    some (.mapping [(k, v)], n, rest)

def flowValue (fuel : Nat) (ends : List Token) (n : Names) (ts : List Token) : Option Parsed :=
  match fuel with
  | 0 => none
  | fuel + 1 =>
    match ts with
    | .value :: rest => optional? fuel false false ends n rest
    | ts => some (absent, n, ts)

def flowEntries (fuel : Nat) (first : Bool) (entries : List (Node × Node)) (n : Names)
    (ts : List Token) : Option Parsed :=
  match fuel with
  | 0 => none
  | fuel + 1 =>
    match ts with
    | .closeMapping :: rest => some (.mapping entries.reverse, n, rest)
    | ts => do
      let ts ← if first then some ts else if isOneOf [.comma] ts then some ts.tail else none
      match ts with
      | .closeMapping :: rest => some (.mapping entries.reverse, n, rest)
      | .key :: rest =>
        let (k, n, rest) ← optional? fuel false false [.value, .comma, .closeMapping] n rest
        let (v, n, rest) ← flowValue fuel [.comma, .closeMapping] n rest
        flowEntries fuel false ((k, v) :: entries) n rest
      | ts =>
        let (k, n, rest) ← ofTokens? fuel false false n ts
        flowEntries fuel false ((k, absent) :: entries) n rest

end

def directives? (version : Bool) (handles : List (List Char × List Char)) :
    List Token → Option (List (List Char × List Char) × List Token)
  | .version major minor :: rest =>
    if version || major != 1 || !(minor == 1 || minor == 2) then none
    else directives? true handles rest
  | .handle h e :: rest =>
    if (handles.lookup h).isSome then none else directives? version ((h, e) :: handles) rest
  | ts => some (handles, ts)

def standardHandles : List (List Char × List Char) :=
  [(['!'], ['!']), (['!', '!'], "tag:yaml.org,2002:".toList)]

def isDirective : List Token → Bool
  | .version .. :: _ => true
  | .handle .. :: _ => true
  | _ => false

def document? (ts : List Token) : Option (Node × List Token) := do
  let fuel := 4 * ts.length + 4
  if isDirective ts || isOneOf [.documentStart] ts then
    let (handles, ts) ← directives? false [] ts
    match ts with
    | .documentStart :: ts =>
      if ts.isEmpty || isDirective ts || isOneOf [.documentStart, .documentEnd] ts then
        some (absent, ts)
      else
        let (x, _, ts) ← ofTokens? fuel true false ⟨handles ++ standardHandles, []⟩ ts
        some (x, ts)
    | _ => none
  else
    let (x, _, ts) ← ofTokens? fuel true false ⟨standardHandles, []⟩ ts
    some (x, ts)

def read? (text : String) : Option (Option Node) := do
  let ts ← tokens? text.toList
  if ts.isEmpty then some none
  else
    let (x, ts) ← document? ts
    if ts.all (· == .documentEnd) then some (some x) else none

end Node
end FirewallAgent.Yaml
