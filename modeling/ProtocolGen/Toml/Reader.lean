import ProtocolGen.Data
import ProtocolGen.Text.Blank

/-!
# Reading TOML

The reader takes TOML 1.0. Only whether a text is well formed and what it holds is told, not where a
fault is. Tables may be opened once by a header, and not at all when they were written inline or
came to be by dotted keys under an earlier header; a new item of a list of tables starts afresh.
-/

set_option autoImplicit false

namespace ProtocolGen.Toml

/-- Why a text is not read: it is not well formed, or an integer is longer than the limit. -/
inductive Fault where
  | malformed
  | tooManyDigits (count : Nat)
  deriving DecidableEq, Repr

/-- The result of reading the head of a text: what was read, and the rest. -/
abbrev Reading (α : Type) := Except Fault (α × List Char)

def maximumDigits : Nat := 4300

def isSpace (char : Char) : Bool := char == ' ' || char == '\t'

def isSpaceOrFeed (char : Char) : Bool := isSpace char || char == '\n'

/-- Control characters other than the tab, which strings of one line and comments must not hold. -/
def isControl (char : Char) : Bool := (char.toNat < 0x20 && char != '\t') || char.toNat == 0x7F

/-- Control characters that strings of several lines must not hold. -/
def isControlInLines (char : Char) : Bool := isControl char && char != '\n'

def isBareKey (char : Char) : Bool := char.isAlphanum || char == '-' || char == '_'

def skipSpaces (text : List Char) : List Char := text.dropWhile isSpace

/-- A text behind a comment, if one stands there. The line feed is not part of it. -/
def skipComment (text : List Char) : Except Fault (List Char) :=
  match text with
  | '#' :: rest =>
    if (rest.takeWhile (· != '\n')).any isControl then .error .malformed
    else .ok (rest.dropWhile (· != '\n'))
  | _ => .ok text

def skipFiller : Nat → List Char → Except Fault (List Char)
  | 0, _ => .error .malformed
  | steps + 1, text =>
    let rest := text.dropWhile isSpaceOrFeed
    match rest with
    | '#' :: _ => (skipComment rest).bind (skipFiller steps)
    | _ => .ok rest

def hexValue? (char : Char) : Option Nat :=
  if char.isDigit then some (char.toNat - '0'.toNat)
  else if 'a' ≤ char && char ≤ 'f' then some (char.toNat - 'a'.toNat + 10)
  else if 'A' ≤ char && char ≤ 'F' then some (char.toNat - 'A'.toNat + 10)
  else none

def hexChar (length : Nat) (text : List Char) : Reading Char :=
  let digits := text.take length
  match (if digits.length == length then digits.mapM hexValue? else none) with
  | some values =>
    let number := values.foldl (fun number digit => number * 16 + digit) 0
    if number.isValidChar then .ok (Char.ofNat number, text.drop length) else .error .malformed
  | none => .error .malformed

def escaped? : Char → Option Char
  | 'b' => some '\x08'
  | 't' => some '\t'
  | 'n' => some '\n'
  | 'f' => some '\x0c'
  | 'r' => some '\r'
  | '"' => some '"'
  | '\\' => some '\\'
  | _ => none

/-- Reads what follows a backslash. In a string of several lines it may be a line break, which
stands for nothing together with the blanks around it. -/
def escape (inLines : Bool) : List Char → Reading (List Char)
  | 'u' :: rest => (hexChar 4 rest).map fun (char, rest) => ([char], rest)
  | 'U' :: rest => (hexChar 8 rest).map fun (char, rest) => ([char], rest)
  | letter :: rest =>
    match escaped? letter with
    | some char => .ok ([char], rest)
    | none =>
      if inLines && isSpaceOrFeed letter then
        match skipSpaces (letter :: rest) with
        | [] => .ok ([], [])
        | '\n' :: rest => .ok ([], rest.dropWhile isSpaceOrFeed)
        | _ => .error .malformed
      else .error .malformed
  | [] => .error .malformed

/-- Reads the rest of a string with escapes, after reversed content. -/
def basicFrom (inLines : Bool) : Nat → List Char → List Char → Reading (List Char)
  | 0, _, _ => .error .malformed
  | _ + 1, _, [] => .error .malformed
  | steps + 1, content, char :: rest =>
    if char == '"' then
      if !inLines then .ok (content.reverse, rest)
      else
        match rest with
        | '"' :: '"' :: rest => .ok (content.reverse, rest)
        | _ => basicFrom inLines steps (char :: content) rest
    else if char == '\\' then
      match escape inLines rest with
      | .error fault => .error fault
      | .ok (piece, rest) => basicFrom inLines steps (piece.reverse ++ content) rest
    else if (if inLines then isControlInLines char else isControl char) then .error .malformed
    else basicFrom inLines steps (char :: content) rest

def basic (text : List Char) : Reading (List Char) := basicFrom false (text.length + 1) [] text

def verbatim (text : List Char) : Reading (List Char) :=
  let content := text.takeWhile (· != '\'')
  match text.drop content.length with
  | _ :: rest => if content.any isControl then .error .malformed else .ok (content, rest)
  | [] => .error .malformed

/-- Reads the rest of a string of several lines without escapes, after reversed content. -/
def verbatimLinesFrom : List Char → List Char → Reading (List Char)
  | content, '\'' :: '\'' :: '\'' :: rest => .ok (content.reverse, rest)
  | content, char :: rest =>
    if isControlInLines char then .error .malformed else verbatimLinesFrom (char :: content) rest
  | _, [] => .error .malformed

/-- A string with up to two more quotes that stand behind its closing ones. -/
def withExtraQuotes (quote : Char) (content rest : List Char) : List Char × List Char :=
  let extra := (rest.take 2).takeWhile (· == quote)
  (content ++ extra, rest.drop extra.length)

/-- Reads a string of several lines behind its opening quotes. A line feed right behind them does
not count. -/
def lines (quote : Char) (text : List Char) : Reading (List Char) :=
  let text :=
    match text with
    | '\n' :: rest => rest
    | _ => text
  let reading := if quote == '"' then basicFrom true (text.length + 1) [] text
    else verbatimLinesFrom [] text
  reading.map fun (content, rest) => withExtraQuotes quote content rest

def keyPart : List Char → Reading Text
  | '\'' :: rest => (verbatim rest).map fun (content, rest) => (Text.ofChars content, rest)
  | '"' :: rest => (basic rest).map fun (content, rest) => (Text.ofChars content, rest)
  | text =>
    let bare := text.takeWhile isBareKey
    if bare.isEmpty then .error .malformed
    else .ok (Text.ofChars bare, text.drop bare.length)

def keyFrom : Nat → List Text → List Char → Reading (List Text)
  | 0, _, _ => .error .malformed
  | steps + 1, parts, text =>
    match keyPart text with
    | .error fault => .error fault
    | .ok (part, rest) =>
      match skipSpaces rest with
      | '.' :: rest => keyFrom steps (part :: parts) (skipSpaces rest)
      | rest => .ok ((part :: parts).reverse, rest)

def key (text : List Char) : Reading (List Text) := keyFrom (text.length + 1) [] text

/-- Digits of a class with single low lines between them, and the rest. -/
def spacedDigits (isDigit : Char → Bool) : List Char → List Char × List Char
  | '_' :: char :: rest =>
    if isDigit char then
      let (digits, rest) := spacedDigits isDigit rest
      (char :: digits, rest)
    else ([], '_' :: char :: rest)
  | char :: rest =>
    if isDigit char then
      let (digits, rest) := spacedDigits isDigit rest
      (char :: digits, rest)
    else ([], char :: rest)
  | [] => ([], [])

def digitRun? (isDigit : Char → Bool) : List Char → Option (List Char × List Char)
  | char :: rest =>
    if isDigit char then
      let (digits, rest) := spacedDigits isDigit rest
      some (char :: digits, rest)
    else none
  | [] => none

def numberIn (base : Nat) (digits : List Char) : Nat :=
  digits.foldl (fun number char => number * base + (hexValue? char).getD 0) 0

def fixedDigits? (count : Nat) (text : List Char) : Option (Nat × List Char) :=
  let digits := text.take count
  if digits.length == count && digits.all Char.isDigit then
    some (numberIn 10 digits, text.drop count)
  else none

def behind? (char : Char) : List Char → Option (List Char)
  | head :: rest => if head == char then some rest else none
  | [] => none

def clock? (text : List Char) : Option (Clock × List Char) := do
  let (hour, rest) ← fixedDigits? 2 text
  let (minute, rest) ← (behind? ':' rest).bind (fixedDigits? 2)
  let (second, rest) ← (behind? ':' rest).bind (fixedDigits? 2)
  if 23 < hour || 59 < minute || 59 < second then none
  let fraction := ((behind? '.' rest).getD []).takeWhile Char.isDigit
  let micro := numberIn 10 (fraction.take 6) * Nat.pow 10 (6 - (fraction.take 6).length)
  some (⟨hour, minute, second, micro⟩,
    if fraction.isEmpty then rest else rest.drop (fraction.length + 1))

/-- The distance from universal time at the head of a text, in minutes. -/
def distance? (text : List Char) : Option (Int × List Char) :=
  match text with
  | 'Z' :: rest | 'z' :: rest => some (0, rest)
  | sign :: rest =>
    if sign == '+' || sign == '-' then do
      let (hours, rest) ← fixedDigits? 2 rest
      let (minutes, rest) ← (behind? ':' rest).bind (fixedDigits? 2)
      if 23 < hours || 59 < minutes then none
      let total : Int := hours * 60 + minutes
      some (if sign == '-' then -total else total, rest)
    else none
  | [] => none

/-- The day at the head of a text, whose month and day are in the ranges of the notation. -/
def day? (text : List Char) : Option (Day × List Char) := do
  let (year, rest) ← fixedDigits? 4 text
  let (month, rest) ← (behind? '-' rest).bind (fixedDigits? 2)
  let (day, rest) ← (behind? '-' rest).bind (fixedDigits? 2)
  if month == 0 || 12 < month || day == 0 || 31 < day then none
  some (⟨year, month, day⟩, rest)

/-- The moment at the head of a text. A day that no calendar has is refused. -/
def moment? (text : List Char) : Option (Reading Data) :=
  match day? text with
  | some (day, rest) =>
    let timed :=
      match rest with
      | mark :: more => if mark == 'T' || mark == 't' || mark == ' ' then clock? more else none
      | [] => none
    if day.complaint?.isSome then some (.error .malformed)
    else
      match timed with
      | none => some (.ok (.moment (.date day), rest))
      | some (clock, rest) =>
        match distance? rest with
        | some (distance, rest) =>
          some (.ok (.moment (.dateTime day clock (some distance)), rest))
        | none => some (.ok (.moment (.dateTime day clock none), rest))
  | none => (clock? text).map fun (clock, rest) => .ok (.moment (.time clock), rest)

def basedInteger? : List Char → Option (Data × List Char)
  | '0' :: mark :: rest =>
    let base :=
      if mark == 'x' then 16 else if mark == 'o' then 8 else if mark == 'b' then 2 else 0
    (digitRun? (fun char => ((hexValue? char).map fun digit => decide (digit < base)).getD false)
      rest).map fun (digits, rest) => (.integer (numberIn base digits), rest)
  | _ => none

def exponent? (text : List Char) : Option (Int × List Char) :=
  match text with
  | letter :: rest =>
    if letter == 'e' || letter == 'E' then
      let negative := rest.head? == some '-'
      let digits := if negative || rest.head? == some '+' then rest.drop 1 else rest
      (digitRun? Char.isDigit digits).map fun (digits, rest) =>
        (if negative then -(numberIn 10 digits : Int) else numberIn 10 digits, rest)
    else none
  | [] => none

def decimalNumber? (text : List Char) : Option (Reading Data) :=
  let negative := text.head? == some '-'
  let unsigned := if negative || text.head? == some '+' then text.drop 1 else text
  let whole :=
    match unsigned with
    | '0' :: rest => some (['0'], rest)
    | _ => digitRun? Char.isDigit unsigned
  whole.map fun (digits, rest) =>
    let fraction := (behind? '.' rest).bind (digitRun? Char.isDigit)
    let (decimals, rest) := fraction.getD ([], rest)
    let exponent := exponent? rest
    let (power, rest) := exponent.getD (0, rest)
    if fraction.isNone && exponent.isNone then
      if maximumDigits < digits.length then .error (.tooManyDigits digits.length)
      else
        let magnitude : Int := numberIn 10 digits
        .ok (.integer (if negative then -magnitude else magnitude), rest)
    else
      .ok (.float (Binary64.ofDecimal negative (numberIn 10 (digits ++ decimals))
        (power - decimals.length)), rest)

def words : List (String × Data) := [
  ("true", .boolean true), ("false", .boolean false), ("inf", .float (Binary64.infinity false)),
  ("+inf", .float (Binary64.infinity false)), ("-inf", .float (Binary64.infinity true)),
  ("nan", .float Binary64.notANumber), ("+nan", .float Binary64.notANumber),
  ("-nan", .float Binary64.notANumber)]

def word? (text : List Char) : Option (Data × List Char) :=
  words.findSome? fun (word, value) =>
    if word.toList.isPrefixOf text then some (value, text.drop word.length) else none

def scalar (text : List Char) : Reading Data :=
  match moment? text with
  | some reading => reading
  | none =>
    match basedInteger? text with
    | some found => .ok found
    | none =>
      match decimalNumber? text with
      | some reading => reading
      | none =>
        match word? text with
        | some found => .ok found
        | none => .error .malformed

abbrev Entries := List (Text × Data)

/-- Changes the entries at the end of a way of keys, making tables where nothing stands. A list on
the way means its last item when lists are entered. There is no way through other values. -/
def updateAt (entersLists : Bool) (change : Entries → Option Entries) :
    List Text → Entries → Option Entries
  | [], entries => change entries
  | key :: keys, entries =>
    match Data.lookupEntry key entries with
    | none => (updateAt entersLists change keys []).map fun inner =>
        Data.insertEntry key (.table inner) entries
    | some (.table inner) => (updateAt entersLists change keys inner).map fun inner =>
        Data.insertEntry key (.table inner) entries
    | some (.list items) =>
      match (if entersLists then items.getLast? else none) with
      | some (.table inner) => (updateAt entersLists change keys inner).map fun inner =>
          Data.insertEntry key (.list (items.dropLast ++ [.table inner])) entries
      | _ => none
    | some _ => none

def addEntry (key : Text) (value : Data) (entries : Entries) : Option Entries :=
  if (Data.lookupEntry key entries).isSome then none else some (entries ++ [(key, value)])

def addItem (key : Text) (entries : Entries) : Option Entries :=
  match Data.lookupEntry key entries with
  | none => some (entries ++ [(key, .list [.table []])])
  | some (.list items) => some (Data.insertEntry key (.list (items ++ [.table []])) entries)
  | some _ => none

def isCollection : Data → Bool
  | .list _ | .table _ => true
  | _ => false

def orMalformed {α : Type} (result : Option α) : Except Fault α :=
  match result with
  | some value => .ok value
  | none => .error .malformed

def isBelow (ways : List (List Text)) (way : List Text) : Bool :=
  ways.any fun closed => closed.isPrefixOf way

mutual

def value : Nat → List Char → Reading Data
  | 0, _ => .error .malformed
  | steps + 1, text =>
    match text with
    | '"' :: '"' :: '"' :: rest =>
      (lines '"' rest).map fun (content, rest) => (.text (Text.ofChars content), rest)
    | '\'' :: '\'' :: '\'' :: rest =>
      (lines '\'' rest).map fun (content, rest) => (.text (Text.ofChars content), rest)
    | '"' :: rest =>
      (basic rest).map fun (content, rest) => (.text (Text.ofChars content), rest)
    | '\'' :: rest =>
      (verbatim rest).map fun (content, rest) => (.text (Text.ofChars content), rest)
    | '[' :: rest =>
      match skipFiller (rest.length + 1) rest with
      | .error fault => .error fault
      | .ok (']' :: rest) => .ok (.list [], rest)
      | .ok rest => items steps [] rest
    | '{' :: rest =>
      match skipSpaces rest with
      | '}' :: rest => .ok (.table [], rest)
      | rest => inlineEntries steps [] [] rest
    | text => scalar text

/-- Reads the items of a list from the next one on, given the reversed items so far. -/
def items : Nat → List Data → List Char → Except Fault (Data × List Char)
  | 0, _, _ => .error .malformed
  | steps + 1, done, text => do
    let (item, rest) ← value steps text
    match ← skipFiller (rest.length + 1) rest with
    | ']' :: rest => .ok (.list (item :: done).reverse, rest)
    | ',' :: rest =>
      match ← skipFiller (rest.length + 1) rest with
      | ']' :: rest => .ok (.list (item :: done).reverse, rest)
      | rest => items steps (item :: done) rest
    | _ => .error .malformed

def pair : Nat → List Char → Except Fault ((List Text × Data) × List Char)
  | 0, _ => .error .malformed
  | steps + 1, text => do
    let (way, rest) ← key text
    match rest with
    | '=' :: rest => do
      let (found, rest) ← value steps (skipSpaces rest)
      .ok ((way, found), rest)
    | _ => .error .malformed

/-- Reads the entries of an inline table from the next one on. Nothing may be added to the values at
closed ways. -/
def inlineEntries : Nat → Entries → List (List Text) → List Char → Except Fault (Data × List Char)
  | 0, _, _, _ => .error .malformed
  | steps + 1, entries, closed, text => do
    let ((way, found), rest) ← pair steps text
    if isBelow closed way then .error .malformed
    let entries ← orMalformed
      (updateAt false (addEntry (way.getLastD []) found) way.dropLast entries)
    match skipSpaces rest with
    | '}' :: rest => .ok (.table entries, rest)
    | ',' :: rest =>
      inlineEntries steps entries (if isCollection found then way :: closed else closed)
        (skipSpaces rest)
    | _ => .error .malformed

end

structure Progress where
  entries : Entries
  /-- The way of the last header. -/
  header : List Text
  /-- Ways of tables that no header may open any more. -/
  opened : List (List Text)
  /-- Ways that will be among them at the next header. -/
  pending : List (List Text)
  /-- Ways of inline values. -/
  closed : List (List Text)

def passed (header way : List Text) : List (List Text) :=
  (List.range (way.length - 1)).map fun index => header ++ way.take (index + 1)

def Progress.addPair (progress : Progress) (way : List Text) (found : Data) :
    Except Fault Progress := do
  let tables := passed progress.header way
  if tables.any progress.opened.contains then throw .malformed
  let parent := progress.header ++ way.dropLast
  if isBelow progress.closed parent then throw .malformed
  let entries ← orMalformed
    (updateAt true (addEntry (way.getLastD []) found) parent progress.entries)
  pure { progress with
    entries := entries, pending := tables ++ progress.pending,
    closed := if isCollection found then (progress.header ++ way) :: progress.closed
      else progress.closed }

def Progress.settle (progress : Progress) : Progress :=
  { progress with opened := progress.pending ++ progress.opened, pending := [] }

def Progress.openTable (progress : Progress) (way : List Text) : Except Fault Progress := do
  if progress.opened.contains way || isBelow progress.closed way then throw .malformed
  let entries ← orMalformed (updateAt true some way progress.entries)
  pure { progress with entries := entries, header := way, opened := way :: progress.opened }

def Progress.openItem (progress : Progress) (way : List Text) : Except Fault Progress := do
  if isBelow progress.closed way then throw .malformed
  let entries ← orMalformed
    (updateAt true (addItem (way.getLastD [])) way.dropLast progress.entries)
  let outside (other : List Text) : Bool := !way.isPrefixOf other
  pure { progress with
    entries := entries, header := way, opened := way :: progress.opened.filter outside,
    closed := progress.closed.filter outside }

/-- Reads the statement at the head of a text, if there is one on the line. -/
def statement (progress : Progress) (text : List Char) : Except Fault (Progress × List Char) :=
  match text with
  | '[' :: '[' :: rest => do
    let (way, rest) ← key (skipSpaces rest)
    let progress ← progress.settle.openItem way
    match rest with
    | ']' :: ']' :: rest => .ok (progress, rest)
    | _ => .error .malformed
  | '[' :: rest => do
    let (way, rest) ← key (skipSpaces rest)
    let progress ← progress.settle.openTable way
    match rest with
    | ']' :: rest => .ok (progress, rest)
    | _ => .error .malformed
  | '#' :: _ | [] => .ok (progress, text)
  | _ => do
    let ((way, found), rest) ← pair (2 * text.length + 2) text
    let progress ← progress.addPair way found
    .ok (progress, rest)

def readFrom : Nat → Progress → List Char → Except Fault Progress
  | 0, _, _ => .error .malformed
  | steps + 1, progress, text =>
    match skipSpaces text with
    | [] => .ok progress
    | '\n' :: rest => readFrom steps progress rest
    | text => do
      let (progress, rest) ← statement progress text
      match ← skipComment (skipSpaces rest) with
      | [] => .ok progress
      | '\n' :: rest => readFrom steps progress rest
      | _ => .error .malformed

def joinLineEnds (text : List Char) : List Char :=
  Text.replaceAll ['\r', '\n'] ['\n'] text

def read (text : List Char) : Except Fault Data :=
  let text := joinLineEnds text
  (readFrom (text.length + 1) ⟨[], [], [], [], []⟩ text).map fun progress => .table progress.entries

end ProtocolGen.Toml
