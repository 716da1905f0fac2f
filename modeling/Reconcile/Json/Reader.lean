import Reconcile.Json.Shape
import Reconcile.Number.Decimal
import Reconcile.Number.Power

/-!
# Reading JSON text

A reader walks over the characters of a text and knows the line and the column it has
reached; columns count bytes. A fault is placed either where the reader stands or one byte
further, on the character it is looking at.

`Json.parse` reads a whole text. The readers for blanks, strings and skipped values are
public, since a record type with known fields is read straight from the text.
-/

namespace Reconcile

/-- What is wrong with a JSON text. -/
inductive SyntaxFault
  | endInList
  | endInObject
  | endInString
  | endInValue
  | expectedColon
  | expectedListCommaOrEnd
  | expectedObjectCommaOrEnd
  | expectedIdentifier
  | expectedValue
  | invalidEscape
  | invalidNumber
  | numberOutOfRange
  | controlCharacter
  | keyMustBeString
  | loneSurrogate
  | trailingComma
  | trailingCharacters
  | endOfHexEscape
  | tooDeep
  /-- The text is well formed so far, but a value has the wrong shape. -/
  | mismatch (m : Mismatch)
deriving DecidableEq, Repr

/-- The text of a fault. -/
def SyntaxFault.message : SyntaxFault → String
  | endInList => "EOF while parsing a list"
  | endInObject => "EOF while parsing an object"
  | endInString => "EOF while parsing a string"
  | endInValue => "EOF while parsing a value"
  | expectedColon => "expected `:`"
  | expectedListCommaOrEnd => "expected `,` or `]`"
  | expectedObjectCommaOrEnd => "expected `,` or `\x7d`"
  | expectedIdentifier => "expected ident"
  | expectedValue => "expected value"
  | invalidEscape => "invalid escape"
  | invalidNumber => "invalid number"
  | numberOutOfRange => "number out of range"
  | controlCharacter => "control character (\\u0000-\\u001F) found while parsing a string"
  | keyMustBeString => "key must be a string"
  | loneSurrogate => "lone leading surrogate in hex escape"
  | trailingComma => "trailing comma"
  | trailingCharacters => "trailing characters"
  | endOfHexEscape => "unexpected end of hex escape"
  | tooDeep => "recursion limit exceeded"
  | mismatch m => m.message

/-- A fault and its place in the text. -/
structure Complaint where
  fault : SyntaxFault
  line : Nat
  column : Nat
deriving DecidableEq, Repr

/-- The text of a complaint. -/
def Complaint.message (c : Complaint) : String :=
  c.fault.message ++ " at line " ++ toString c.line ++ " column " ++ toString c.column

/-- What is left of a text, and the place reached in it. -/
structure Scan where
  rest : List Char
  line : Nat
  column : Nat
  /-- The number of characters of the whole text, which bounds what can be left. -/
  bound : Nat

/-- The beginning of a text. -/
def Scan.start (text : String) : Scan := ⟨text.toList, 1, 0, text.length⟩

/-- The place behind one character. -/
def Scan.after (c : Scan) (x : Char) (rest : List Char) : Scan :=
  if x = '\n' then { c with rest := rest, line := c.line + 1, column := 0 }
  else { c with rest := rest, column := c.column + x.utf8Size }

/-- The place a number of bytes further on, or at the end. Within a character only the column
moves on. -/
def Scan.skipBytes (c : Scan) : List Char → (bytes : Nat) → Scan
  | [], _ => c
  | x :: rest, bytes =>
    if x.utf8Size ≤ bytes then (c.after x rest).skipBytes rest (bytes - x.utf8Size)
    else { c with column := c.column + bytes }

/-- A reader moves the scan on and gives a result, or complains. -/
abbrev Reader (α : Type) := StateT Scan (Except Complaint) α

namespace Reader

/-- The next character, without passing it. -/
def look : Reader (Option Char) := fun c => .ok (c.rest.head?, c)

/-- Passes the next character. -/
def advance : Reader (Option Char) := fun c =>
  match c.rest with
  | [] => .ok (none, c)
  | x :: rest => .ok (some x, c.after x rest)

/-- Complains at the place reached. -/
def fail {α : Type} (fault : SyntaxFault) : Reader α := fun c => .error ⟨fault, c.line, c.column⟩

/-- Complains about the character ahead: its first byte counts as passed. -/
def failAhead {α : Type} (fault : SyntaxFault) : Reader α := fun c =>
  match c.rest with
  | [] => .error ⟨fault, c.line, c.column⟩
  | x :: _ => if x = '\n' then .error ⟨fault, c.line + 1, 0⟩
    else .error ⟨fault, c.line, c.column + 1⟩

/-- Passes blanks and gives the character behind them. -/
def blanks : Reader (Option Char) := fun c =>
  let rec go : List Char → Scan → Scan
    | [], c => c
    | x :: rest, c =>
      if x = ' ' ∨ x = '\n' ∨ x = '\t' ∨ x = '\r' then go rest (c.after x rest) else c
  let c := go c.rest c
  .ok (c.rest.head?, c)

/-- Passes the given letters, which must follow. -/
def letters : List Char → Reader Unit
  | [] => return ()
  | x :: rest => do
    match ← look with
    | none => fail .endInValue
    | some y =>
      if x = y then
        let _ ← advance
        letters rest
      else failAhead .expectedIdentifier

/-! ## Strings -/

/-- The value of a hexadecimal digit. -/
def hexDigit? (c : Char) : Option Nat :=
  if '0' ≤ c ∧ c ≤ '9' then some (c.toNat - 48)
  else if 'a' ≤ c ∧ c ≤ 'f' then some (c.toNat - 87)
  else if 'A' ≤ c ∧ c ≤ 'F' then some (c.toNat - 55)
  else none

/-- The value of four hexadecimal digits. -/
def hexUnit (a b c d : Char) : Option Nat := do
  return (← hexDigit? a) * 4096 + (← hexDigit? b) * 256 + (← hexDigit? c) * 16 + (← hexDigit? d)

/-- Reads four hexadecimal digits. Four bytes count as passed whatever they are, so a
complaint may stand within a character. -/
def fourHex : Reader Nat := fun s =>
  let passed := s.skipBytes s.rest 4
  if (s.rest.take 4).foldl (fun n x => n + x.utf8Size) 0 < 4 then fail .endInString passed
  else
    match s.rest with
    | a :: b :: c :: d :: _ =>
      match hexUnit a b c d with
      | some n => .ok (n, passed)
      | none => fail .invalidEscape passed
    | _ => fail .invalidEscape passed

/-- Passes one expected character of the second half of a surrogate pair. -/
def surrogateMark (x : Char) : Reader Unit := do
  match ← look with
  | none => fail .endInString
  | some y =>
    if x = y then
      let _ ← advance
    else failAhead .endOfHexEscape

/-- Reads the digits of a code point escape; a pair of surrogates makes one character. -/
def codePoint : Reader Char := do
  let n ← fourHex
  if 0xDC00 ≤ n ∧ n ≤ 0xDFFF then fail .loneSurrogate
  else if 0xD800 ≤ n ∧ n ≤ 0xDBFF then do
    surrogateMark '\\'
    surrogateMark 'u'
    let m ← fourHex
    if m < 0xDC00 ∨ 0xDFFF < m then fail .loneSurrogate
    else return Char.ofNat (0x10000 + (n - 0xD800) * 0x400 + (m - 0xDC00))
  else return Char.ofNat n

/-- The characters that have an escape of one letter. -/
def shortEscape? : Char → Option Char
  | '"' => some '"'
  | '\\' => some '\\'
  | '/' => some '/'
  | 'b' => some '\x08'
  | 'f' => some '\x0c'
  | 'n' => some '\n'
  | 'r' => some '\r'
  | 't' => some '\t'
  | _ => none

/-- Reads an escape behind its backslash, given the reader of code points. -/
def escapeWith {α : Type} (short : Char → α) (point : Reader α) : Reader α := do
  match ← look with
  | none => fail .endInString
  | some c =>
    if c = 'u' then do
      let _ ← advance
      point
    else
      match shortEscape? c with
      | some x => do
        let _ ← advance
        return short x
      | none => failAhead .invalidEscape

/-- Reads an escape behind its backslash. -/
def escape : Reader Char := escapeWith id codePoint

/-- Reads the characters of a string up to its closing quote; `fuel` bounds their number. -/
def stringTail : (fuel : Nat) → List Char → Reader String
  | 0, _ => fail .endInString
  | fuel + 1, done => do
    match ← advance with
    | none => fail .endInString
    | some '"' => return String.ofList done.reverse
    | some '\\' => do
      let x ← escape
      stringTail fuel (x :: done)
    | some x => if x.toNat < 32 then fail .controlCharacter else stringTail fuel (x :: done)

/-- Reads a string behind its opening quote. -/
def string : Reader String := fun c => stringTail (c.bound + 1) [] c

/-- Passes the characters of a string up to its closing quote; `fuel` bounds their number.
Halves of surrogate pairs may stand alone here, and the complaint about a control character
stands before it. -/
def skipStringTail : (fuel : Nat) → Reader Unit
  | 0 => fail .endInString
  | fuel + 1 => do
    match ← look with
    | none => fail .endInString
    | some '"' => let _ ← advance
    | some '\\' => do
      let _ ← advance
      escapeWith (fun _ => ()) (do let _ ← fourHex)
      skipStringTail fuel
    | some x =>
      if x.toNat < 32 then fail .controlCharacter
      else do
        let _ ← advance
        skipStringTail fuel

/-- Passes a string behind its opening quote without keeping it. -/
def skipString : Reader Unit := fun c => skipStringTail (c.bound + 1) c

/-! ## Numbers -/

/-- Passes digits as long as the number they make stays below `bound`; gives that number, how
many digits were passed, and whether one was left because of the bound. -/
def digitsBelow (bound : Nat) : (fuel n count : Nat) → Reader (Nat × Nat × Bool)
  | 0, n, count => return (n, count, false)
  | fuel + 1, n, count => do
    match ← look with
    | some c =>
      if c.isDigit then
        let m := 10 * n + (c.toNat - 48)
        if m < bound then do
          let _ ← advance
          digitsBelow bound fuel m (count + 1)
        else return (n, count, true)
      else return (n, count, false)
    | none => return (n, count, false)

/-- `digitsBelow` with enough fuel for what is left. -/
def digits (bound n : Nat) : Reader (Nat × Nat × Bool) :=
  fun c => digitsBelow bound (c.bound + 1) n 0 c

/-- Passes any further digits and gives their number. -/
def moreDigits : Reader Nat := do
  let c ← get
  let run := c.rest.takeWhile Char.isDigit
  set { c with rest := c.rest.drop run.length, column := c.column + run.length }
  return run.length

/-- A float of the given parts, or the complaint that it is out of range. -/
def floatOf (negative : Bool) (significand : Nat) (exponent : Int) : Reader Json :=
  match Number.scale significand exponent with
  | some x => return .float (if negative then -x else x)
  | none => fail .numberOutOfRange

/-- Reads an exponent behind its letter. -/
def exponentTail (negative : Bool) (significand : Nat) (start : Int) : Reader Json := do
  let sign ← look
  let down := sign = some '-'
  if sign = some '+' ∨ sign = some '-' then
    let _ ← advance
  match ← look with
  | none => fail .endInValue
  | some c =>
    if !c.isDigit then failAhead .invalidNumber
    else
      let _ ← advance
      let (n, _, overflow) ← digits (Number.twoTo 31) (c.toNat - 48)
      if overflow then
        if significand ≠ 0 ∧ !down then failAhead .numberOutOfRange
        else do
          let _ ← moreDigits
          return .float (if negative then -0.0 else 0.0)
      else floatOf negative significand (if down then start - n else start + n)

/-- The end of a number without a point: perhaps an exponent. -/
def exponentIfAny (negative : Bool) (significand : Nat) (start : Int) : Reader Json := do
  let c ← look
  if c = some 'e' ∨ c = some 'E' then do
    let _ ← advance
    exponentTail negative significand start
  else floatOf negative significand start

/-- Reads the digits behind the point. Digits that no longer fit are passed over. -/
def fraction (negative : Bool) (significand : Nat) (start : Int) : Reader Json := do
  let (n, count, overflow) ← digits (Number.twoTo 64) significand
  if overflow then do
    let _ ← moreDigits
    exponentIfAny negative n (start - count)
  else if count = 0 then do
    match ← look with
    | some _ => failAhead .invalidNumber
    | none => failAhead .endInValue
  else exponentIfAny negative n (start - count)

/-- Reads the rest of a number whose integer digits are known to be complete. -/
def numberTail (negative : Bool) (significand : Nat) : Reader Json := do
  match ← look with
  | some '.' => do
    let _ ← advance
    fraction negative significand 0
  | some 'e' | some 'E' => exponentIfAny negative significand 0
  | _ =>
    if !negative then return .int significand
    else if significand = 0 ∨ Number.twoTo 63 < significand then
      return .float (-(Float.ofNat significand))
    else return .int (-(significand : Int))

/-- Reads a number behind its sign. -/
def number (negative : Bool) : Reader Json := do
  match ← look with
  | none => fail .endInValue
  | some '0' => do
    let _ ← advance
    match ← look with
    | some c => if c.isDigit then failAhead .invalidNumber else numberTail negative 0
    | none => numberTail negative 0
  | some c =>
    if !c.isDigit then failAhead .invalidNumber
    else
      let _ ← advance
      let (n, _, overflow) ← digits (Number.twoTo 64) (c.toNat - 48)
      if overflow then do
        let extra ← moreDigits
        match ← look with
        | some '.' => do
          let _ ← advance
          fraction negative n extra
        | _ => exponentIfAny negative n extra
      else numberTail negative n

/-- Passes digits, of which there must be one. -/
def someDigits : Reader Unit := do
  if (← moreDigits) = 0 then failAhead .invalidNumber

/-- Passes a number behind its sign without keeping it. -/
def skipNumber : Reader Unit := do
  if (← look) = some '0' then
    let _ ← advance
    match ← look with
    | some c => if c.isDigit then failAhead .invalidNumber
    | none => return ()
  else someDigits
  if (← look) = some '.' then
    let _ ← advance
    someDigits
  let c ← look
  if c = some 'e' ∨ c = some 'E' then
    let _ ← advance
    let sign ← look
    if sign = some '+' ∨ sign = some '-' then
      let _ ← advance
    someDigits

/-! ## Sequences and objects -/

/-- Moves to the next item of a list, past a comma unless it is the first; `false` at the
closing bracket, which is left standing. -/
def nextItem (first : Bool) : Reader Bool := do
  let ahead ← match ← blanks with
    | none => failAhead .endInList
    | some ']' => return false
    | some ',' => if first then pure (some ',') else do
        let _ ← advance
        let c ← blanks
        if c = some ']' then failAhead .trailingComma
        pure c
    | some c => if first then pure (some c) else failAhead .expectedListCommaOrEnd
  match ahead with
  | none => failAhead .endInValue
  | some _ => return true

/-- Moves to the next key of an object, past a comma unless it is the first; `false` at the
closing brace, which is left standing. -/
def nextKey (first : Bool) : Reader Bool := do
  let ahead ← match ← blanks with
    | none => failAhead .endInObject
    | some '}' => return false
    | some ',' => if first then pure (some ',') else do
        let _ ← advance
        blanks
    | some c => if first then pure (some c) else failAhead .expectedObjectCommaOrEnd
  match ahead with
  | some '"' => do
    let _ ← advance
    return true
  | some '}' => failAhead .trailingComma
  | some _ => failAhead .keyMustBeString
  | none => failAhead .endInValue

/-- Passes the colon behind a key. -/
def colon : Reader Unit := do
  match ← blanks with
  | some ':' => let _ ← advance
  | some _ => failAhead .expectedColon
  | none => failAhead .endInObject

/-- Passes the end of a list. -/
def endList : Reader Unit := do
  match ← blanks with
  | some ']' => let _ ← advance
  | some ',' => do
    let _ ← advance
    match ← blanks with
    | some ']' => failAhead .trailingComma
    | _ => failAhead .trailingCharacters
  | some _ => failAhead .trailingCharacters
  | none => failAhead .endInList

/-- Passes the end of an object. -/
def endObject : Reader Unit := do
  match ← blanks with
  | some '}' => let _ ← advance
  | some ',' => failAhead .trailingComma
  | some _ => failAhead .trailingCharacters
  | none => failAhead .endInObject

/-! ## Values -/

/-- How deeply lists and objects may be nested. -/
def depthLimit : Nat := 127

mutual

/-- Reads a value; `depth` is what is left of the permitted nesting. -/
def value : (fuel depth : Nat) → Reader Json
  | 0, _ => fail .tooDeep
  | fuel + 1, depth => do
    match ← blanks with
    | none => failAhead .endInValue
    | some c => match c with
      | 'n' => do let _ ← advance; letters ['u', 'l', 'l']; return .null
      | 't' => do let _ ← advance; letters ['r', 'u', 'e']; return .bool true
      | 'f' => do let _ ← advance; letters ['a', 'l', 's', 'e']; return .bool false
      | '"' => do let _ ← advance; return .string (← string)
      | '-' => do let _ ← advance; number true
      | '[' =>
        match depth with
        | 0 => failAhead .tooDeep
        | depth + 1 => do
          let _ ← advance
          let items ← valueItems fuel depth true
          endList
          return .array items
      | '{' =>
        match depth with
        | 0 => failAhead .tooDeep
        | depth + 1 => do
          let _ ← advance
          let fields ← valueFields fuel depth true
          endObject
          return .ofFields fields
      | c => if c.isDigit then number false else failAhead .expectedValue

/-- Reads the items of a list up to its closing bracket. -/
def valueItems : (fuel depth : Nat) → (first : Bool) → Reader (List Json)
  | 0, _, _ => fail .tooDeep
  | fuel + 1, depth, first => do
    if ← nextItem first then
      let item ← value fuel depth
      return item :: (← valueItems fuel depth false)
    else return []

/-- Reads the fields of an object up to its closing brace. -/
def valueFields : (fuel depth : Nat) → (first : Bool) → Reader (List (String × Json))
  | 0, _, _ => fail .tooDeep
  | fuel + 1, depth, first => do
    if ← nextKey first then
      let name ← string
      colon
      let v ← value fuel depth
      return (name, v) :: (← valueFields fuel depth false)
    else return []

end

/-- What may follow an item of a skipped list or object: a comma, or its end. -/
def skipSeparator (close : Char) (ended missing : SyntaxFault) : Reader Bool := do
  match ← blanks with
  | none => failAhead ended
  | some c =>
    if c = ',' then do
      let _ ← advance
      return true
    else if c = close then do
      let _ ← advance
      return false
    else failAhead missing

/-- Passes a key and its colon in a skipped object. -/
def skipKey : Reader Unit := do
  match ← blanks with
  | some '"' => do
    let _ ← advance
    skipString
    colon
  | some _ => failAhead .keyMustBeString
  | none => failAhead .endInObject

mutual

/-- Passes a value without keeping it. -/
def skip : (fuel : Nat) → Reader Unit
  | 0 => fail .tooDeep
  | fuel + 1 => do
    match ← blanks with
    | none => failAhead .endInValue
    | some c => match c with
      | 'n' => do let _ ← advance; letters ['u', 'l', 'l']
      | 't' => do let _ ← advance; letters ['r', 'u', 'e']
      | 'f' => do let _ ← advance; letters ['a', 'l', 's', 'e']
      | '"' => do let _ ← advance; skipString
      | '-' => do let _ ← advance; skipNumber
      | '[' => do
        let _ ← advance
        match ← blanks with
        | some ']' => let _ ← advance
        | none => failAhead .endInList
        | some _ => skipItems fuel
      | '{' => do
        let _ ← advance
        match ← blanks with
        | some '}' => let _ ← advance
        | none => failAhead .endInObject
        | some _ => skipFields fuel
      | c => if c.isDigit then skipNumber else failAhead .expectedValue

/-- Passes the items of a list and its end. -/
def skipItems : (fuel : Nat) → Reader Unit
  | 0 => fail .tooDeep
  | fuel + 1 => do
    skip fuel
    if ← skipSeparator ']' .endInList .expectedListCommaOrEnd then skipItems fuel

/-- Passes the fields of an object and its end. -/
def skipFields : (fuel : Nat) → Reader Unit
  | 0 => fail .tooDeep
  | fuel + 1 => do
    skipKey
    skip fuel
    if ← skipSeparator '}' .endInObject .expectedObjectCommaOrEnd then skipFields fuel

end

/-- Reads a value with enough fuel for what is left. -/
def wholeValue (depth : Nat) : Reader Json := fun c => value (2 * c.bound + 2) depth c

/-- Passes a value with enough fuel for what is left. -/
def skipValue : Reader Unit := fun c => skip (2 * c.bound + 2) c

/-! ## Mismatches -/

/-- Places a mismatch where the reader stands. -/
def misfit {α : Type} (m : Mismatch) : Reader α := fail (.mismatch m)

/-- The complaint about a value of the wrong kind. Scalars are read, which places the
complaint behind them; a list or an object is not entered. -/
def wrongKind {α : Type} (expected : String) : Reader α := do
  match ← look with
  | some '[' => misfit ((Json.array []).unexpected expected)
  | some '{' => misfit ((Json.object []).unexpected expected)
  | _ =>
    let v ← value 2 0
    misfit (v.unexpected expected)

/-! ## Whole texts -/

/-- Only blanks may follow. -/
def finish : Reader Unit := do
  match ← blanks with
  | none => return ()
  | some _ => failAhead .trailingCharacters

/-- Runs a reader on a whole text. -/
def readAll {α : Type} (r : Reader α) (text : String) : Except Complaint α :=
  match (do let a ← r; finish; return a : Reader α) (Scan.start text) with
  | .ok (a, _) => .ok a
  | .error e => .error e

end Reader

/-- Reads a text as a JSON value. -/
def Json.parse (text : String) : Except Complaint Json :=
  Reader.readAll (Reader.wholeValue Reader.depthLimit) text

end Reconcile
