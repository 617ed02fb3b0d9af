/-! Text for terminals. An escape character begins a control sequence, which sets a style or does
something else to the screen; plain text is what is left without these. -/

namespace FrameRelay.Text

/-- Where a reader stands: in plain text, right behind an escape character, or in a sequence. A
`title` ends at a bell. A `payload` ends at a terminator byte; it is a text of its own or stands
behind a `heading`, where designators and parameters come first. -/
inductive Reading where
  | plain
  | escape
  | designator
  | parameters
  | title
  | heading
  | headingParameters
  | headingDesignator
  | payload
  deriving Repr, DecidableEq, Inhabited

/-- Control characters that only move the text on. -/
def isSpacing (c : Char) : Bool := c == '\t' || c == '\n' || c == '\x0c' || c == '\r'

/-- The byte that ends a payload, also where it is a part of a character. -/
def terminator : UInt8 := 0x9c

/-- What a character right behind an escape begins; most say all by themselves. -/
def Reading.behindEscape (c : Char) : Reading :=
  if c.toNat < 0x30 then .designator
  else if c == '[' then .parameters
  else if c == ']' then .title
  else if c == 'P' then .heading
  else if c == 'X' || c == '^' || c == '_' then .payload
  else .plain

/-- Where a printable character of a sequence leads. -/
def Reading.after (c : Char) : Reading → Reading
  | .plain => .plain
  | .escape => .behindEscape c
  | .designator => if c.toNat < 0x30 then .designator else .plain
  | .parameters => if c.toNat < 0x40 then .parameters else .plain
  | .title => .title
  | .heading =>
    if c.toNat < 0x30 then .headingDesignator
    else if c.toNat < 0x40 then .headingParameters
    else .payload
  | .headingParameters =>
    if c.toNat < 0x30 then .headingDesignator
    else if c.toNat < 0x3c then .headingParameters
    else .payload
  | .headingDesignator => if c.toNat < 0x30 then .headingDesignator else .payload
  | .payload => .payload

/-- Where a character beyond the printable ones of a sequence leads. -/
def Reading.beyond (c : Char) : Reading → Reading
  | .payload => if (String.utf8EncodeChar c).contains terminator then .plain else .payload
  | reading => reading

/-- Whether spacing stays within the sequence. -/
def Reading.swallows : Reading → Bool
  | .title | .heading | .headingParameters | .headingDesignator | .payload => true
  | _ => false

/-- Whether a character is shown, and where the reader stands behind it. An escape begins anew,
cancel and substitute break off, and spacing does so too in a short sequence. -/
def Reading.step (reading : Reading) (c : Char) : Bool × Reading :=
  if c.toNat = 27 then (false, .escape)
  else if c.toNat = 24 || c.toNat = 26 then (false, .plain)
  else if reading == .title && c.toNat = 7 then (false, .plain)
  else if isSpacing c && !reading.swallows then (true, .plain)
  else if c.toNat < 32 || c.toNat = 127 then (false, reading)
  else if reading == .plain then (true, .plain)
  else if 127 < c.toNat then (false, reading.beyond c)
  else (false, reading.after c)

def shownFrom (reading : Reading) : List Char → List Char
  | [] => []
  | c :: rest =>
    let (isShown, next) := reading.step c
    if isShown then c :: shownFrom next rest else shownFrom next rest

def plainText (text : String) : String := String.ofList (shownFrom .plain text.toList)

/-- A text in one of the styles that a terminal knows by number. -/
def styled (style text : String) : String := "\x1b[" ++ style ++ "m" ++ text ++ "\x1b[0m"

def bold (text : String) : String := styled "1" text
def yellow (text : String) : String := styled "33" text
def boldRed (text : String) : String := styled "1;31" text

end FrameRelay.Text
