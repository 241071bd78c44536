import Tc8Harness.Inventory.CaseSuite

/-!
# The readers of inventory texts

The helpers of `sce_integration/spec_inventory.cpp`. The harness has no JSON parser here: a field is
read by a regular expression that may match anywhere in a block (the leftmost match wins), and
blocks are cut out by counting brackets outside of quoted strings. Each reader below is the source's
pattern or loop, on the text as a list of characters.
-/

namespace Tc8Harness.Sce

/-! ## Patterns -/

/-- The characters of `\s` and `std::isspace`: blank, tab, newline, vertical tab, form feed and
carriage return. -/
def isSpace (c : Char) : Bool :=
  c == ' ' || c == '\t' || c == '\n' || c == '\x0b' || c == '\x0c' || c == '\r'

/-- `std::regex_search`: the leftmost position at which the pattern matches. -/
def regexSearch {α : Type} (pattern : List Char → Option α) : List Char → Option α
  | [] => pattern []
  | c :: cs =>
    match pattern (c :: cs) with
    | some found => some found
    | none => regexSearch pattern cs

/-- `"key"\s*:`, giving the text behind it. -/
def keyPattern (key : List Char) (text : List Char) : Option (List Char) :=
  match text.dropPrefix? ('"' :: key ++ ['"']) with
  | none => none
  | some rest =>
    match rest.dropWhile isSpace with
    | ':' :: rest => some rest
    | _ => none

/-- `"key"\s*:\s*`, giving the text behind it. -/
def valuePattern (key : List Char) (text : List Char) : Option (List Char) :=
  (keyPattern key text).map (List.dropWhile isSpace)

/-- `"([^"]*)"` -/
def stringPattern : List Char → Option (List Char)
  | '"' :: rest => if '"' ∈ rest then some (rest.takeWhile (· ≠ '"')) else none
  | _ => none

/-- `(-?[0-9]+)`, as its sign and digits. -/
def intPattern (text : List Char) : Option (Bool × List Char) :=
  let negative := text.head? == some '-'
  let digits := (if negative then text.tail else text).takeWhile Char.isDigit
  if digits = [] then none else some (negative, digits)

/-- `(true|false)` -/
def boolPattern (text : List Char) : Option Bool :=
  if "true".toList.isPrefixOf text then some true
  else if "false".toList.isPrefixOf text then some false
  else none

/-- `\[([^\]]*)\]` -/
def bracketPattern : List Char → Option (List Char)
  | '[' :: rest => if ']' ∈ rest then some (rest.takeWhile (· ≠ ']')) else none
  | _ => none

/-! ## Fields of a block -/

/-- Empty when the field is absent. -/
def findStringField (block : List Char) (key : String) : List Char :=
  (regexSearch (fun t => (valuePattern key.toList t).bind stringPattern) block).getD []

/-- `std::stoi`; `none` is its exception for a value outside of `int`. -/
def stoi (negative : Bool) (digits : List Char) : Option Int :=
  let magnitude := digits.foldl (fun n c => n * 10 + (c.toNat - '0'.toNat)) 0
  let value : Int := if negative then -magnitude else magnitude
  if -2 ^ 31 ≤ value ∧ value < 2 ^ 31 then some value else none

def findIntField (block : List Char) (key : String) (dflt : Int) : Int :=
  match regexSearch (fun t => (valuePattern key.toList t).bind intPattern) block with
  | some (negative, digits) => (stoi negative digits).getD dflt
  | none => dflt

def findBoolField (block : List Char) (key : String) (dflt : Bool) : Bool :=
  (regexSearch (fun t => (valuePattern key.toList t).bind boolPattern) block).getD dflt

/-- The texts between successive pairs of quotes; `open?` holds what a string read so far. -/
def quotedItems (open? : Option (List Char)) : List Char → List (List Char)
  | [] => []
  | c :: cs =>
    match open? with
    | none => if c = '"' then quotedItems (some []) cs else quotedItems none cs
    | some item =>
      if c = '"' then item :: quotedItems none cs else quotedItems (some (item ++ [c])) cs

def findStringArrayField (block : List Char) (key : String) : List (List Char) :=
  match regexSearch (fun t => (valuePattern key.toList t).bind bracketPattern) block with
  | some body => quotedItems none body
  | none => []

/-- Whether the block names the key at all, whatever its value. -/
def hasField (block : List Char) (key : String) : Bool :=
  (regexSearch (keyPattern key.toList) block).isSome

/-! ## Blocks -/

/-- Where a scan stands with regard to quoted strings (`in_string`, `escaped`). -/
inductive Quote where
  | outside
  | inside (escaped : Bool)
  deriving DecidableEq, Repr

def Quote.next : Quote → Char → Quote
  | .outside, c => if c = '"' then .inside false else .outside
  | .inside true, _ => .inside false
  | .inside false, c =>
    if c = '\\' then .inside true else if c = '"' then .outside else .inside false

/-- The loop of `splitJsonObjectArray`. The depth may go negative on unbalanced text. -/
def splitObjectsFrom (depth : Int) (quote : Quote) (cur : List Char) :
    List Char → List (List Char)
  | [] => []
  | c :: cs =>
    if quote ≠ .outside ∨ c = '"' then splitObjectsFrom depth (quote.next c) (cur ++ [c]) cs
    else if c = '\x7b' then
      splitObjectsFrom (depth + 1) .outside ((if depth = 0 then [] else cur) ++ [c]) cs
    else if c = '\x7d' then
      if depth = 1 then (cur ++ [c]) :: splitObjectsFrom 0 .outside [] cs
      else splitObjectsFrom (depth - 1) .outside (cur ++ [c]) cs
    else splitObjectsFrom depth .outside (if 0 < depth then cur ++ [c] else cur) cs

/-- Each top-level object of an array body. -/
def splitJsonObjectArray (body : List Char) : List (List Char) :=
  splitObjectsFrom 0 .outside [] body

/-- The loop of `extractArrayBody`: the text up to the bracket that closes depth `depth`; empty when
none does. -/
def arrayBodyFrom (depth : Nat) (quote : Quote) (body : List Char) : List Char → List Char
  | [] => []
  | c :: cs =>
    if quote ≠ .outside ∨ c = '"' then arrayBodyFrom depth (quote.next c) (body ++ [c]) cs
    else if c = '[' then arrayBodyFrom (depth + 1) .outside (body ++ [c]) cs
    else if c = ']' then
      if depth = 1 then body else arrayBodyFrom (depth - 1) .outside (body ++ [c]) cs
    else arrayBodyFrom depth .outside (body ++ [c]) cs

/-- The body of the array of this key; empty when the key is absent or the array is not closed. -/
def extractArrayBody (doc : List Char) (key : String) : List Char :=
  let marker := fun t =>
    match valuePattern key.toList t with
    | some ('[' :: rest) => some rest
    | _ => none
  match regexSearch marker doc with
  | some rest => arrayBodyFrom 1 .outside [] rest
  | none => []

/-- The first loop of `splitJsonObjectMap`: the text up to the brace that closes depth `depth`, or
up to the end. -/
def objectBodyFrom (depth : Nat) (quote : Quote) (buf : List Char) : List Char → List Char
  | [] => buf
  | c :: cs =>
    if quote ≠ .outside ∨ c = '"' then objectBodyFrom depth (quote.next c) (buf ++ [c]) cs
    else if c = '\x7b' then objectBodyFrom (depth + 1) .outside (buf ++ [c]) cs
    else if c = '\x7d' then
      if depth = 1 then buf else objectBodyFrom (depth - 1) .outside (buf ++ [c]) cs
    else objectBodyFrom depth .outside (buf ++ [c]) cs

/-- Where the second loop of `splitJsonObjectMap` stands. -/
inductive EntryScan where
  /-- Between entries, with the last quoted string read since the last entry. -/
  | between (key : Option (List Char))
  | key (id : List Char) (escaped : Bool)
  | value (key : List Char) (depth : Nat) (quote : Quote) (val : List Char)
  deriving DecidableEq, Repr

def entriesFrom : EntryScan → List Char → List (List Char × List Char)
  | _, [] => []
  | .between key?, c :: cs =>
    if c = '"' then entriesFrom (.key [] false) cs
    else
      match key? with
      | some key =>
        if c = '\x7b' then entriesFrom (.value key 1 .outside [c]) cs
        else entriesFrom (.between key?) cs
      | none => entriesFrom (.between none) cs
  | .key id escaped, c :: cs =>
    if escaped then entriesFrom (.key (id ++ [c]) false) cs
    else if c = '\\' then entriesFrom (.key id true) cs
    else if c = '"' then entriesFrom (.between (some id)) cs
    else entriesFrom (.key (id ++ [c]) false) cs
  | .value key depth quote val, c :: cs =>
    if quote ≠ .outside ∨ c = '"' then
      entriesFrom (.value key depth (quote.next c) (val ++ [c])) cs
    else if c = '\x7b' then entriesFrom (.value key (depth + 1) .outside (val ++ [c])) cs
    else if c = '\x7d' then
      if depth = 1 then (key, val ++ [c]) :: entriesFrom (.between none) cs
      else entriesFrom (.value key (depth - 1) .outside (val ++ [c])) cs
    else entriesFrom (.value key depth .outside (val ++ [c])) cs

/-- The entries of the object of this key, each with its quoted key and its block. -/
def splitJsonObjectMap (doc : List Char) (key : String) : List (List Char × List Char) :=
  let marker := fun t =>
    match valuePattern key.toList t with
    | some ('\x7b' :: rest) => some rest
    | _ => none
  match regexSearch marker doc with
  | some rest => entriesFrom (.between none) (objectBodyFrom 1 .outside [] rest)
  | none => []

/-! ## The root object -/

/-- Where `findRootStringField` stands. -/
inductive RootScan where
  | scan
  | token (s : List Char) (escaped : Bool)
  | expectColon
  | expectValue
  | value (s : List Char) (escaped : Bool)
  deriving DecidableEq, Repr

/-- One character outside of any string: the depth and the state after it. -/
def rootStep (depth : Int) (c : Char) : Int × RootScan :=
  if c = '"' then (depth, .token [] false)
  else if c = '\x7b' ∨ c = '[' then (depth + 1, .scan)
  else if c = '\x7d' ∨ c = ']' then (depth - 1, .scan)
  else (depth, .scan)

def rootFieldFrom (key : List Char) (depth : Int) : RootScan → List Char → Option (List Char)
  | .value s _, [] => some s
  | _, [] => none
  | .scan, c :: cs => rootFieldFrom key (rootStep depth c).1 (rootStep depth c).2 cs
  | .token s escaped, c :: cs =>
    if escaped then rootFieldFrom key depth (.token (s ++ [c]) false) cs
    else if c = '\\' then rootFieldFrom key depth (.token s true) cs
    else if c = '"' then
      rootFieldFrom key depth (if depth ≠ 1 ∨ s ≠ key then .scan else .expectColon) cs
    else rootFieldFrom key depth (.token (s ++ [c]) false) cs
  | .expectColon, c :: cs =>
    if isSpace c then rootFieldFrom key depth .expectColon cs
    else if c = ':' then rootFieldFrom key depth .expectValue cs
    -- a string value that happens to spell the key: this character is scanned as any other
    else rootFieldFrom key (rootStep depth c).1 (rootStep depth c).2 cs
  | .expectValue, c :: cs =>
    if isSpace c then rootFieldFrom key depth .expectValue cs
    else if c = '"' then rootFieldFrom key depth (.value [] false) cs
    else none
  | .value s escaped, c :: cs =>
    if escaped then rootFieldFrom key depth (.value (s ++ [c]) false) cs
    else if c = '\\' then rootFieldFrom key depth (.value s true) cs
    else if c = '"' then some s
    else rootFieldFrom key depth (.value (s ++ [c]) false) cs

/-- The string field of the document's root object; `none` when it has none. -/
def findRootStringField (doc : List Char) (key : String) : Option (List Char) :=
  rootFieldFrom key.toList 0 .scan doc

end Tc8Harness.Sce
