import Geotrack.Number.Reading

/-!
# Texts, keys and gaps in TOML

Four kinds of quoted texts: in double quotes with escapes or in single quotes without, each in one
line or, with three quotes, over many. A key is one or more names with points between them. Between
things stand blanks, in some places also line breaks and comments. What is read is followed by the
rest of the text.
-/

namespace Geotrack.Toml

/-- Whether a character may stand as it is in a text or comment: a tab may, no other control. -/
def isPlain (c : Char) : Bool := c = '\t' || (0x20 ≤ c.toNat && c.toNat ≠ 0x7f)

def isGap (c : Char) : Bool := c = ' ' || c = '\t'

def skipGap (cs : List Char) : List Char := cs.dropWhile isGap

/-- What follows a line break. -/
def afterBreak? : List Char → Option (List Char)
  | '\n' :: rest => some rest
  | '\r' :: '\n' :: rest => some rest
  | _ => none

/-- The next line. Nothing but blanks and a comment may stand before it. -/
def nextLine? (cs : List Char) : Option (List Char) :=
  let rest := match skipGap cs with
    | '#' :: comment => comment.dropWhile isPlain
    | cs => cs
  if rest.isEmpty then some [] else afterBreak? rest

/-- What follows blanks, line breaks and comments; `inComment` tells whether it starts in one. -/
def skipLines (inComment : Bool) : List Char → List Char
  | '\n' :: rest => skipLines false rest
  | '\r' :: '\n' :: rest => skipLines false rest
  | c :: rest =>
    if inComment then if isPlain c then skipLines true rest else c :: rest
    else if c = '#' then skipLines true rest
    else if isGap c then skipLines false rest
    else c :: rest
  | [] => []

/-- The characters up to the closing quote, escapes as they stand. -/
def shortSpan? (quote : Char) : List Char → Option (List Char × List Char)
  | [] => none
  | c :: rest =>
    if c = quote then some ([], rest)
    else if !isPlain c then none
    else if c = '\\' && quote = '"' then
      match rest with
      | [] => none
      | d :: rest =>
        if isPlain d then (shortSpan? quote rest).map fun (span, rest) => (c :: d :: span, rest)
        else none
    else (shortSpan? quote rest).map fun (span, rest) => (c :: span, rest)

/-- The characters up to three closing quotes, of which one or two more may stand in front. A line
break is one character. -/
def longSpan? (quote : Char) : List Char → Option (List Char × List Char)
  | [] => none
  | '\r' :: '\n' :: rest => (longSpan? quote rest).map fun (span, rest) => ('\n' :: span, rest)
  | c :: rest =>
    if c = quote && rest.take 2 = [quote, quote] then
      let more := (rest.drop 2).takeWhile (· = quote)
      let kept := more.take 2
      some (kept, rest.drop (2 + kept.length))
    else if c = '\\' && quote = '"' then
      match rest with
      | '"' :: rest => (longSpan? quote rest).map fun (span, rest) => ('\\' :: '"' :: span, rest)
      | '\\' :: rest => (longSpan? quote rest).map fun (span, rest) => ('\\' :: '\\' :: span, rest)
      | rest => (longSpan? quote rest).map fun (span, rest) => ('\\' :: span, rest)
    else if isPlain c || c = '\n' then
      (longSpan? quote rest).map fun (span, rest) => (c :: span, rest)
    else none

/-- The character that a backslash and one letter stand for. -/
def escape? : Char → Option Char
  | 'b' => some '\x08'
  | 't' => some '\t'
  | 'n' => some '\n'
  | 'f' => some '\x0c'
  | 'r' => some '\r'
  | 'e' => some '\x1b'
  | '"' => some '"'
  | '\\' => some '\\'
  | _ => none

/-- How many hexadecimal digits follow a letter that starts the number of a character. -/
def escapeDigits : Char → Nat
  | 'x' => 2
  | 'u' => 4
  | 'U' => 8
  | _ => 0

/-- The character with a number written in hexadecimal digits. -/
def numbered? (digits : List Char) : Option Char := do
  let n ← hexValue? digits
  if n.isValidChar then some (Char.ofNat n) else none

/-- A text with its escapes resolved. A backslash at the end of a line drops the line break and all
blanks and line breaks after it. -/
def unescape? (cs : List Char) : Option (List Char) :=
  match cs with
  | [] => some []
  | '\\' :: c :: rest =>
    match escape? c with
    | some d => (unescape? rest).map (d :: ·)
    | none =>
      let count := escapeDigits c
      if 0 < count then
        if count ≤ rest.length then do
          let d ← numbered? (rest.take count)
          (unescape? (rest.drop count)).map (d :: ·)
        else none
      else if (skipGap (c :: rest)).head? = some '\n' then
        unescape? (rest.dropWhile fun c => isGap c || c = '\n')
      else none
  | c :: rest => if c = '\\' then none else (unescape? rest).map (c :: ·)
termination_by cs.length
decreasing_by
  all_goals simp only [List.length_cons, List.length_drop]
  · omega
  · omega
  · have := (List.dropWhile_suffix (fun c => isGap c || c = '\n') (l := rest)).length_le
    omega
  · omega

/-- A text over many lines: a line break right after the opening quotes does not count. -/
def dropFirstBreak (cs : List Char) : List Char := (afterBreak? cs).getD cs

/-- The text at the front, which starts with a quote. -/
def text? : List Char → Option (String × List Char)
  | '"' :: '"' :: '"' :: rest => do
    let (span, rest) ← longSpan? '"' (dropFirstBreak rest)
    return (String.ofList (← unescape? span), rest)
  | '"' :: rest => do
    let (span, rest) ← shortSpan? '"' rest
    return (String.ofList (← unescape? span), rest)
  | '\'' :: '\'' :: '\'' :: rest =>
    (longSpan? '\'' (dropFirstBreak rest)).map fun (span, rest) => (String.ofList span, rest)
  | '\'' :: rest => (shortSpan? '\'' rest).map fun (span, rest) => (String.ofList span, rest)
  | _ => none

def isBareKey (c : Char) : Bool := c.isAlphanum || c = '_' || c = '-'

/-- One name of a key: bare, or quoted in one line. -/
def name? (cs : List Char) : Option (String × List Char) :=
  match cs with
  | '"' :: '"' :: '"' :: _ => none
  | '\'' :: '\'' :: '\'' :: _ => none
  | '"' :: _ => text? cs
  | '\'' :: _ => text? cs
  | cs =>
    let bare := cs.takeWhile isBareKey
    if bare.isEmpty then none else some (String.ofList bare, cs.drop bare.length)

/-- A key: names with points between them, blanks allowed around each. -/
def key? : (fuel : Nat) → List Char → Option (List String × List Char)
  | 0, _ => none
  | fuel + 1, cs => do
    let (name, rest) ← name? (skipGap cs)
    match skipGap rest with
    | '.' :: rest => (key? fuel rest).map fun (names, rest) => (name :: names, rest)
    | rest => some ([name], rest)

end Geotrack.Toml
