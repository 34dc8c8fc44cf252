import BlockSketch.Json.Number

/-!
# Reader: JSON texts, read once from left to right

A reader takes characters from the front of a text and hands back a value and the text that is
left, or the first thing it found wrong, as a `Fault`. Nothing is read twice and nothing is read
ahead, so the fault reported is always the one that stands first.

* Some readers know what they want: `Reader.text`, `Reader.flag`, `Reader.list`, `Reader.table`,
  `Reader.record`. A wrong scalar is read to its end before it is refused (`Reader.refuse`), so
  that a malformed one is reported as malformed; a wrong bracket is refused at once.
* `Reader.json` reads any value, and `Reader.skip` passes over one.

**Depth.** Every reader of a bracketed value has a budget: how many brackets may be open from there
on. A bracket that would exceed it is malformed. The budget is what the recursion runs on. Only
`Reader.skip` has none, and it works off a list of open brackets.

**Rounds.** The loops over items and members are bounded by the length of the text that is left,
which is enough, since each round takes at least one character.
-/

namespace BlockSketch

/-- What is wrong with a text. -/
inductive Fault
  /-- The text is not JSON, or opens too many brackets, or has a number out of range. -/
  | malformed
  /-- The text ends inside a value. -/
  | incomplete
  /-- The text is JSON so far, but not the value that is wanted. -/
  | unsuitable
deriving DecidableEq, Repr

/-- A reader of values from the front of a text. -/
abbrev Reader := StateT (List Char) (Except Fault)

namespace Reader

variable {α : Type}

/-! ### Characters -/

/-- The blanks between the parts of a value. -/
def isGap (c : Char) : Bool :=
  c == ' ' || c == '\n' || c == '\t' || c == '\r'

/-- Passes over blanks and shows the character that follows, without taking it. -/
def peek : Reader (Option Char) := do
  let text := (← get).dropWhile isGap
  set text
  return text.head?

/-- Takes one character. -/
def advance : Reader Unit :=
  modify (·.drop 1)

/-- Takes the characters of a word, one by one. -/
def word : List Char → Reader Unit
  | [] => return ()
  | c :: more => do
    match ← get with
    | [] => throw .incomplete
    | d :: text =>
      if c = d then
        set text
        word more
      else throw .malformed

/-! ### Strings -/

/-- The value of a hexadecimal digit. -/
def hexDigit? (c : Char) : Option Nat :=
  if '0' ≤ c && c ≤ '9' then some (c.toNat - 48)
  else if 'a' ≤ c && c ≤ 'f' then some (c.toNat - 87)
  else if 'A' ≤ c && c ≤ 'F' then some (c.toNat - 55)
  else none

/-- The code unit that four hexadecimal digits spell. -/
def codeUnit? (a b c d : Char) : Option Nat := do
  return (((← hexDigit? a) * 16 + (← hexDigit? b)) * 16 + (← hexDigit? c)) * 16 + (← hexDigit? d)

/-- The fault of an escape with fewer than four characters left of the text: it is incomplete as
long as these are fewer than four bytes. -/
def cutEscape (short : List Char) : Fault :=
  if 4 ≤ short.foldl (fun bytes c => bytes + c.utf8Size) 0 then .malformed else .incomplete

/-- The character that a one-letter escape stands for. -/
def shortEscape? : Char → Option Char
  | '"' => some '"'
  | '\\' => some '\\'
  | '/' => some '/'
  | 'b' => some '\x08'
  | 'f' => some '\x0c'
  | 'n' => some '\n'
  | 'r' => some '\r'
  | 't' => some '\t'
  | _ => none

/-- Whether a code unit is the first half of a pair. -/
def isHighHalf (unit : Nat) : Bool :=
  0xD800 ≤ unit && unit ≤ 0xDBFF

/-- Whether a code unit is the second half of a pair. -/
def isLowHalf (unit : Nat) : Bool :=
  0xDC00 ≤ unit && unit ≤ 0xDFFF

/-- The character that a pair of code units stands for. -/
def pairChar (high low : Nat) : Char :=
  Char.ofNat (0x10000 + (high - 0xD800) * 0x400 + (low - 0xDC00))

/-- Puts a character in front of what was read. -/
def withChar (c : Char) : Except Fault (List Char × List Char) → Except Fault (List Char × List Char)
  | .ok (chars, text) => .ok (c :: chars, text)
  | .error fault => .error fault

/-- Reads the characters of a string up to its closing quote. Escaped code units must form
characters: half of a pair alone is malformed. -/
def stringChars : List Char → Except Fault (List Char × List Char)
  | [] => .error .incomplete
  | c :: text =>
    if c = '"' then .ok ([], text)
    else if c = '\\' then
      match text with
      | [] => .error .incomplete
      | 'u' :: a :: b :: c :: d :: rest =>
        match codeUnit? a b c d with
        | none => .error .malformed
        | some high =>
          if isHighHalf high then
            match rest with
            | [] => .error .incomplete
            | ['\\'] => .error .incomplete
            | '\\' :: 'u' :: e :: f :: g :: h :: after =>
              match codeUnit? e f g h with
              | none => .error .malformed
              | some low =>
                if isLowHalf low then withChar (pairChar high low) (stringChars after)
                else .error .malformed
            | '\\' :: 'u' :: short => .error (cutEscape short)
            | _ => .error .malformed
          else if isLowHalf high then .error .malformed
          else withChar (Char.ofNat high) (stringChars rest)
      | 'u' :: short => .error (cutEscape short)
      | e :: rest =>
        match shortEscape? e with
        | some plain => withChar plain (stringChars rest)
        | none => .error .malformed
    else if c.toNat < 0x20 then .error .malformed
    else withChar c (stringChars text)

/-- Reads a string whose opening quote has been taken. -/
def stringBody : Reader String := do
  let (chars, text) ← StateT.lift (stringChars (← get))
  set text
  return String.ofList chars

/-- Passes over the characters of a string up to its closing quote. An escaped code unit may be
anything. -/
def skipChars : List Char → Except Fault (List Char)
  | [] => .error .incomplete
  | c :: text =>
    if c = '"' then .ok text
    else if c = '\\' then
      match text with
      | [] => .error .incomplete
      | 'u' :: a :: b :: c :: d :: rest =>
        match codeUnit? a b c d with
        | none => .error .malformed
        | some _ => skipChars rest
      | 'u' :: short => .error (cutEscape short)
      | e :: rest => if (shortEscape? e).isSome then skipChars rest else .error .malformed
    else if c.toNat < 0x20 then .error .malformed
    else skipChars text

/-- Passes over a string whose opening quote has been taken. -/
def skipString : Reader Unit := do
  set (← StateT.lift (skipChars (← get)))

/-! ### Numbers -/

/-- At least one digit; `atEnd` is the fault if the text ends here. -/
def someDigits (atEnd : Fault) : Reader (List Digit) := do
  match Digits.take (← get) with
  | ([], []) => throw atEnd
  | ([], _ :: _) => throw .malformed
  | (digits, text) =>
    set text
    return digits

/-- The digits before the point: a single zero or digits that do not start with one. -/
def wholeDigits (atEnd : Fault) : Reader (List Digit) := do
  match ← someDigits atEnd with
  | ⟨0, _⟩ :: _ :: _ => throw .malformed
  | digits => return digits

/-- The digits after the point, none if there is no point. -/
def fractionDigits (atEnd : Fault) : Reader (List Digit) := do
  match ← get with
  | '.' :: text =>
    set text
    someDigits atEnd
  | _ => return []

/-- The exponent, if there is one. -/
def exponent (atEnd : Fault) : Reader (Option Int) := do
  match ← get with
  | c :: text =>
    if c = 'e' || c = 'E' then
      let (negative, unsigned) := Numeral.takeSign text
      set unsigned
      let e : Int := Digits.toNat (← someDigits atEnd)
      return some (if negative then -e else e)
    else return none
  | [] => return none

/-- A number without its sign; `atEnd` is the fault if the text ends where a digit must follow. -/
def numeral (atEnd : Fault) : Reader Numeral := do
  let whole ← wholeDigits atEnd
  let fraction ← fractionDigits atEnd
  let e ← exponent atEnd
  return ⟨whole, fraction, e⟩

/-- A number without its sign, as the number it denotes. -/
def number (negative : Bool) : Reader JsonNumber := do
  match JsonNumber.ofNumeral? negative (← numeral .incomplete) with
  | some n => return n
  | none => throw .malformed

/-! ### Scalars -/

/-- Reads a scalar of any kind. -/
def scalar : Reader Json := do
  match ← peek with
  | none => throw .incomplete
  | some c =>
    if c = 'n' then
      word ['n', 'u', 'l', 'l']
      return .null
    else if c = 't' then
      word ['t', 'r', 'u', 'e']
      return .bool true
    else if c = 'f' then
      word ['f', 'a', 'l', 's', 'e']
      return .bool false
    else if c = '"' then
      advance
      return .string (← stringBody)
    else if c = '-' then
      advance
      return .number (← number true)
    else if c.isDigit then return .number (← number false)
    else throw .malformed

/-- Refuses the value that stands here, whatever it is. -/
def refuse : Reader α := do
  match ← peek with
  | some '[' => throw .unsuitable
  | some '{' => throw .unsuitable
  | _ =>
    let _ ← scalar
    throw .unsuitable

/-- Reads a string. -/
def text : Reader String := do
  match ← peek with
  | some '"' =>
    advance
    stringBody
  | _ => refuse

/-- Reads `true` or `false`. -/
def flag : Reader Bool := do
  match ← peek with
  | some 't' =>
    word ['t', 'r', 'u', 'e']
    return true
  | some 'f' =>
    word ['f', 'a', 'l', 's', 'e']
    return false
  | _ => refuse

/-- Reads `null` or what `reader` reads. -/
def optional (reader : Reader α) : Reader (Option α) := do
  match ← peek with
  | some 'n' =>
    word ['n', 'u', 'l', 'l']
    return none
  | _ => return some (← reader)

/-! ### Brackets -/

/-- Takes the separator in front of an item, if there is one; `false` at the closing bracket, which
is left standing. -/
def hasItem (first : Bool) : Reader Bool := do
  match ← peek with
  | none => throw .incomplete
  | some ']' => return false
  | some c =>
    if first then return true
    else if c = ',' then
      advance
      match ← peek with
      | none => throw .incomplete
      | some ']' => throw .malformed
      | some _ => return true
    else throw .malformed

/-- Takes the closing bracket of an array. -/
def closeArray : Reader Unit := do
  match ← peek with
  | some ']' => advance
  | some _ => throw .malformed
  | none => throw .incomplete

/-- The items of an array whose opening bracket has been taken. -/
def items (item : Reader α) : Nat → Bool → Reader (List α)
  | 0, _ => throw .incomplete
  | rounds + 1, first => do
    if ← hasItem first then
      let a ← item
      return a :: (← items item rounds false)
    else
      closeArray
      return []

/-- The next item of an array in which a place of its own belongs to every item: `none` if the
array ends before. -/
def nextItem (first : Bool) (item : Reader α) : Reader (Option α) := do
  if ← hasItem first then return some (← item) else return none

/-- Takes the name of the next member and the colon after it; `none` at the closing brace, which is
taken too. The name is handed to `accept`, which may refuse it before the colon is looked at. -/
def nextName (first : Bool) (accept : String → Bool) : Reader (Option String) := do
  match ← peek with
  | none => throw .incomplete
  | some '}' =>
    advance
    return none
  | some c =>
    if !first then
      if c = ',' then
        advance
        if (← peek).isNone then throw .incomplete
      else throw .malformed
    match ← peek with
    | some '"' =>
      advance
      let name ← stringBody
      if !accept name then throw .unsuitable
      match ← peek with
      | some ':' =>
        advance
        return some name
      | some _ => throw .malformed
      | none => throw .incomplete
    | _ => throw .malformed

/-- The members of an object whose opening brace has been taken, worked off one by one: `member`
reads the value that belongs to a name into what has been read so far. -/
def members {σ : Type} (accept : σ → String → Bool) (member : σ → String → Reader σ) :
    Nat → Bool → σ → Reader σ
  | 0, _, _ => throw .incomplete
  | rounds + 1, first, soFar => do
    match ← nextName first (accept soFar) with
    | none => return soFar
    | some name => members accept member rounds false (← member soFar name)

/-- Rounds enough for what is left of the text. -/
def rounds : Reader Nat :=
  return (← get).length + 1

/-- Reads an array. `item` reads an item; it is `none` if no further bracket may be opened. -/
def list (item : Option (Reader α)) : Reader (List α) := do
  match ← peek with
  | some '[' =>
    match item with
    | none => throw .malformed
    | some item =>
      advance
      items item (← rounds) true
  | _ => refuse

/-- Reads an object as a table. `value` reads the value of a member; it is `none` if no further
bracket may be opened. A name that comes again has its last value. -/
def table (value : Option (Reader α)) : Reader (Table α) := do
  match ← peek with
  | some '{' =>
    match value with
    | none => throw .malformed
    | some value =>
      advance
      members (fun _ _ => true) (fun soFar name => return Table.insert name (← value) soFar)
        (← rounds) true []
  | _ => refuse

/-- The two ways to write a record down: an array with the members in their places, or an object
with names. The readers are for what follows the opening bracket. -/
structure Record (α : Type) where
  inPlaces : Reader α
  named : Reader α

/-- Reads a record; `none` says that no further bracket may be opened. -/
def record (ways : Option (Record α)) : Reader α := do
  match ← peek, ways with
  | some '[', none => throw .malformed
  | some '{', none => throw .malformed
  | some '[', some ways =>
    advance
    ways.inPlaces
  | some '{', some ways =>
    advance
    ways.named
  | _, _ => refuse

/-- What is read one bracket further in, given how many brackets may be open from here on. -/
def within {β : Type} (budget : Nat) (inner : Nat → β) : Option β :=
  match budget with
  | 0 => none
  | budget + 1 => some (inner budget)

/-! ### Any value -/

/-- Reads a value of any kind in which at most `budget` brackets are open at once. -/
def json : Nat → Reader Json
  | 0 => do
    match ← peek with
    | some '[' => throw .malformed
    | some '{' => throw .malformed
    | _ => scalar
  | inner + 1 => do
    match ← peek with
    | some '[' =>
      advance
      return .array (← items (json inner) (← rounds) true)
    | some '{' =>
      advance
      return .object (← members (fun _ _ => true)
        (fun soFar name => return Table.insert name (← json inner) soFar) (← rounds) true [])
    | _ => scalar

/-! ### Values that are passed over -/

/-- The two kinds of brackets. -/
inductive Bracket
  | square
  | curly
deriving DecidableEq, Repr

/-- The character that closes a bracket. -/
def Bracket.closing : Bracket → Char
  | square => ']'
  | curly => '}'

/-- Passes over the name of a member and its colon. -/
def skipName : Reader Unit := do
  match ← peek with
  | some '"' =>
    advance
    skipString
    match ← peek with
    | some ':' => advance
    | some _ => throw .malformed
    | none => throw .incomplete
  | some _ => throw .malformed
  | none => throw .incomplete

/-- Passes over a scalar. A number that the end of the text cuts off is malformed here. -/
def skipScalar : Reader Unit := do
  match ← peek with
  | none => throw .incomplete
  | some c =>
    if c = 'n' then word ['n', 'u', 'l', 'l']
    else if c = 't' then word ['t', 'r', 'u', 'e']
    else if c = 'f' then word ['f', 'a', 'l', 's', 'e']
    else if c = '"' then
      advance
      skipString
    else if c = '-' then
      advance
      let _ ← numeral .malformed
    else if c.isDigit then
      let _ ← numeral .malformed
    else throw .malformed

/-- After a value: takes the brackets that close here, up to a comma that announces another value.
The brackets that stay open are handed back; there are none when the whole value has ended. -/
def closeBrackets : List Bracket → Reader (List Bracket)
  | [] => return []
  | bracket :: outer => do
    match ← peek with
    | none => throw .incomplete
    | some c =>
      if c = ',' then
        advance
        if bracket = .curly then skipName
        return bracket :: outer
      else if c = bracket.closing then
        advance
        closeBrackets outer
      else throw .malformed

/-- Takes an opening bracket and, if it is not closed at once, what stands in front of its first
value. The answer is whether a value follows. -/
def openBracket (bracket : Bracket) : Reader Bool := do
  advance
  match ← peek with
  | none => throw .incomplete
  | some c =>
    if c = bracket.closing then
      advance
      return false
    else
      if bracket = .curly then skipName
      return true

/-- Passes over a value inside the brackets that are open. -/
def skipFrom : Nat → List Bracket → Reader Unit
  | 0, _ => throw .incomplete
  | rounds + 1, outer => do
    let (opened, ended) ← (do
      match ← peek with
      | some '[' => return ([Bracket.square], !(← openBracket .square))
      | some '{' => return ([Bracket.curly], !(← openBracket .curly))
      | _ =>
        skipScalar
        return ([], true))
    if ended then
      match ← closeBrackets outer with
      | [] => return ()
      | still => skipFrom rounds still
    else skipFrom rounds (opened ++ outer)

/-- Passes over a value of any kind and any depth, of which only the form is checked. -/
def skip : Reader Unit := do
  skipFrom (← rounds) []

/-! ### Whole texts -/

/-- The number of brackets that a text may have open at once. -/
def depth : Nat := 127

/-- Reads a text that is one value and nothing more. -/
def whole (reader : Nat → Reader α) (source : String) : Except Fault α := do
  let (a, text) ← StateT.run (reader depth) source.toList
  if (text.dropWhile isGap).isEmpty then return a else throw .malformed

end Reader

end BlockSketch
