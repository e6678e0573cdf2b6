-- SUMMARY: Buddy lists of st_list.c: the text that a list is stored as, and loading one from any text.
import Mathlib.Data.Nat.Digits.Lemmas

/-!
# Sametime lists

A list is stored as lines: its version, then each group followed by its users. The
fields of a line are separated by blanks, so a blank in a name is written as a
semicolon. The type of a group or user is a character at the end of its first field.

`Chars` are the characters of a C string before its terminator. What the text functions
of the C library do is written out for the formats used here, in the C locale.

Loading has no result where the C code leaves a buffer, uses a group that is not there,
or asks for more memory than there is.
-/

namespace Meanwhile.StList

abbrev Chars := List UInt8

/-! ## Lists -/

/-- `enum mwSametimeUserType` -/
inductive MwSametimeUserType where
  | normal | external | unknown
deriving DecidableEq, Repr

/-- `enum mwSametimeGroupType` -/
inductive MwSametimeGroupType where
  | normal | dynamic | unknown
deriving DecidableEq, Repr

/-- `struct mwSametimeUser`. A `char *` that is `NULL` is `none`. -/
structure MwSametimeUser where
  type : MwSametimeUserType := .normal
  id : Option Chars := none
  community : Option Chars := none
  name : Option Chars := none
  alias_ : Option Chars := none
deriving DecidableEq, Repr

/-- `struct mwSametimeGroup` -/
structure MwSametimeGroup where
  type : MwSametimeGroupType := .normal
  name : Option Chars := none
  alias_ : Option Chars := none
  open_ : Bool := false
  users : List MwSametimeUser := []
deriving DecidableEq, Repr

/-- `struct mwSametimeList`, with the version that `mwSametimeList_new` gives it -/
structure MwSametimeList where
  verMajor : UInt32 := 3
  verMinor : UInt32 := 1
  verMicro : UInt32 := 3
  groups : List MwSametimeGroup := []
deriving DecidableEq, Repr

/-! ## Characters -/

def chSpace : UInt8 := 0x20
def chSemicolon : UInt8 := 0x3b
def chColon : UInt8 := 0x3a
def chComma : UInt8 := 0x2c
def chDot : UInt8 := 0x2e
def ch0 : UInt8 := 0x30
def ch1 : UInt8 := 0x31
def ch2 : UInt8 := 0x32
def ch3 : UInt8 := 0x33
def ch9 : UInt8 := 0x39
def chC : UInt8 := 0x43
def chG : UInt8 := 0x47
def chO : UInt8 := 0x4f
def chU : UInt8 := 0x55
def chV : UInt8 := 0x56
def chCr : UInt8 := 0x0d
def chLf : UInt8 := 0x0a

/-- `"Version="` -/
def versionLiteral : Chars := [0x56, 0x65, 0x72, 0x73, 0x69, 0x6f, 0x6e, 0x3d]

/-- `isspace` -/
def isSpace (c : UInt8) : Bool := c = 0x20 ∨ 0x09 ≤ c ∧ c ≤ 0x0d

/-- `g_ascii_isspace`, for which a vertical tab is no space -/
def gAsciiIsspace (c : UInt8) : Bool := isSpace c ∧ c ≠ 0x0b

/-- `isdigit` -/
def isDigit (c : UInt8) : Bool := ch0 ≤ c ∧ c ≤ ch9

/-- `str_replace` -/
def strReplace (str : Chars) (src dst : UInt8) : Chars :=
  str.map fun c => if c = src then dst else c

/-- `%s` of `printf` -/
def printS : Option Chars → Chars
  | none => [0x28, 0x6e, 0x75, 0x6c, 0x6c, 0x29]
  | some s => s

/-- `%u` of `printf` -/
def printU (n : UInt32) : Chars :=
  if n = 0 then [ch0] else (Nat.digits 10 n.toNat).reverse.map fun d => ch0 + UInt8.ofNat d

/-! ## Storing -/

/-- `user_type_to_char` -/
def userTypeToChar : MwSametimeUserType → UInt8
  | .normal => ch1
  | .external => ch2
  | .unknown => ch9

/-- `user_char_to_type` -/
def userCharToType (type : UInt8) : MwSametimeUserType :=
  if type = ch1 then .normal else if type = ch2 then .external else .unknown

/-- `group_type_to_char` -/
def groupTypeToChar : MwSametimeGroupType → UInt8
  | .normal => ch2
  | .dynamic => ch3
  | .unknown => ch9

/-- `group_char_to_type` -/
def groupCharToType (type : UInt8) : MwSametimeGroupType :=
  if type = ch2 then .normal else if type = ch3 then .dynamic else .unknown

/-- `str_replace` of blanks by semicolons in a string that may be `NULL` -/
def packed (str : Option Chars) : Option Chars := str.map (strReplace · chSpace chSemicolon)

/-- The line of `user_put`, without its end. An alias stands in for a name. -/
def userLine (u : MwSametimeUser) : Chars :=
  let id := packed u.id
  let name := packed u.name
  let alias_ := packed u.alias_
  let (name, alias_) := if name.isNone && alias_.isSome then (alias_, none) else (name, alias_)
  [chU, chSpace] ++ printS id ++ [userTypeToChar u.type, chColon, chColon, chSpace] ++
    name.getD [] ++ [chComma] ++ alias_.getD []

/-- The line of `group_put`, without its end. The name stands in for an alias. -/
def groupLine (g : MwSametimeGroup) : Chars :=
  let name := packed g.name
  let alias_ := packed (if g.alias_.isSome then g.alias_ else g.name)
  [chG, chSpace] ++ printS name ++ [groupTypeToChar g.type, chSpace] ++ printS alias_ ++
    [chSpace, if g.open_ then chO else chC]

def versionLine (l : MwSametimeList) : Chars :=
  versionLiteral ++ printU l.verMajor ++ [chDot] ++ printU l.verMinor ++ [chDot] ++
    printU l.verMicro

/-- The lines of `group_put` -/
def groupLines (g : MwSametimeGroup) : List Chars := groupLine g :: g.users.map userLine

/-- The lines of `list_store` -/
def listLines (l : MwSametimeList) : List Chars := versionLine l :: l.groups.flatMap groupLines

/-- `mwSametimeList_store` -/
def mwSametimeListStore (l : MwSametimeList) : Chars :=
  (listLines l).flatMap (· ++ [chCr, chLf])

/-! ## Scanning -/

/-- White space in a format -/
def skipSpace (s : Chars) : Chars := s.dropWhile isSpace

/-- `%s` of `sscanf`: the field and what follows it -/
def scanS (s : Chars) : Option (Chars × Chars) :=
  let s := skipSpace s
  let field := s.takeWhile (!isSpace ·)
  if field = [] then none else some (field, s.dropWhile (!isSpace ·))

/-- `strtoul` of digits with a sign, stored in 32 bits -/
def wordOf (negative : Bool) (digits : Chars) : UInt32 :=
  let n := digits.foldl (fun n d => 10 * n + (d - ch0).toNat) 0
  let n := if 2 ^ 64 ≤ n then 2 ^ 64 - 1 else if negative then (2 ^ 64 - n) % 2 ^ 64 else n
  UInt32.ofNat n

/-- `%u` of `sscanf`: the number and what follows it -/
def scanU (s : Chars) : Option (UInt32 × Chars) :=
  let s := skipSpace s
  let (negative, s) := match s with
    | 0x2d :: s => (true, s)
    | 0x2b :: s => (false, s)
    | s => (false, s)
  let digits := s.takeWhile isDigit
  if digits = [] then none else some (wordOf negative digits, s.dropWhile isDigit)

/-- The numbers that `sscanf` assigns of the three in a version. Those it does not come
to stay zero. -/
def scanVersion (line : Chars) : UInt32 × UInt32 × UInt32 :=
  if versionLiteral.isPrefixOf line then
    match scanU (line.drop versionLiteral.length) with
    | some (major, 0x2e :: s) =>
        match scanU s with
        | some (minor, 0x2e :: s) =>
            match scanU s with
            | some (micro, _) => (major, minor, micro)
            | none => (major, minor, 0)
        | some (minor, _) => (major, minor, 0)
        | none => (major, 0, 0)
    | some (major, _) => (major, 0, 0)
    | none => (0, 0, 0)
  else (0, 0, 0)

/-- The two fields after the first character of a line, as far as they are there, and
the rest of it -/
def scanFields (line : Chars) : Option Chars × Option Chars × Chars :=
  match scanS (line.drop 1) with
  | none => (none, none, [])
  | some (first, s) =>
      match scanS s with
      | none => (some first, none, [])
      | some (second, s) => (some first, some second, s)

/-! ## Buffers for fields -/

/-- `ret = strlen(line)`, an `int` -/
def bufferSize (line : Chars) : Int := (BitVec.ofNat 32 line.length).toInt

/-- `g_malloc0(ret)` with a field scanned into it. A block of no bytes is `NULL`. -/
def fieldBuffer (line : Chars) (field : Option Chars) : Option (Option Chars) :=
  if bufferSize line < 0 then none
  else
    match field with
    | none => some (if bufferSize line = 0 then none else some [])
    | some s => if (s.length : Int) < bufferSize line then some (some s) else none

/-- `str_replace` of semicolons by blanks in a string that may be `NULL` -/
def unpacked (str : Option Chars) : Option Chars := str.map (strReplace · chSemicolon chSpace)

/-! ## Loading -/

/-- `get_version` -/
def getVersion (line : Chars) (l : MwSametimeList) : MwSametimeList :=
  let (major, minor, micro) := scanVersion line
  { l with verMajor := major, verMinor := minor, verMicro := micro }

/-- The last character of a name, which is its type, cut off -/
def splitType (name : Option Chars) : Option Chars × UInt8 :=
  match name.bind (·.getLast?) with
  | none => (name, ch2)
  | some type => (name.map (·.dropLast), type)

/-- `get_group` -/
def getGroup (line : Chars) : Option MwSametimeGroup := do
  let (name, alias_, rest) := scanFields line
  let openChar := if alias_.isSome then ((skipSpace rest).head?).getD chO else chO
  let name ← fieldBuffer line name
  let alias_ ← fieldBuffer line alias_
  let (name, type) := splitType (unpacked name)
  return { type := groupCharToType type, name := name, alias_ := unpacked alias_,
           open_ := openChar = chO }

/-- What stands before the first `"::"` (`strstr`) -/
def beforeColons : Chars → Option Chars
  | [] => none
  | c :: cs =>
      if c = chColon ∧ cs.head? = some chColon then some [] else (beforeColons cs).map (c :: ·)

/-- The character before `"::"`, which is the type, cut off with all that follows. When
the colons come first, there is no such character. -/
def splitUserType (id : Option Chars) : Option (Option Chars × UInt8) :=
  match id.bind beforeColons with
  | none => some (id, ch1)
  | some before =>
      match before.getLast? with
      | none => none
      | some type => some (some before.dropLast, type)

/-- What stands before and after the last comma (`strrchr`) -/
def splitComma : Chars → Option (Chars × Chars)
  | [] => none
  | c :: cs =>
      match splitComma cs with
      | some (before, after) => some (c :: before, after)
      | none => if c = chComma then some ([], cs) else none

/-- The name and, if there is one, the alias after the last comma -/
def splitAlias (name : Option Chars) : Option Chars × Option Chars :=
  match name.bind splitComma with
  | none => (name, none)
  | some (before, after) => (some before, if after = [] then none else some after)

/-- `get_user`, but for the group that the user is appended to -/
def getUser (line : Chars) : Option MwSametimeUser := do
  let (id, name, _) := scanFields line
  let id ← fieldBuffer line id
  let name ← fieldBuffer line name
  let (id, type) ← splitUserType (unpacked id)
  let (name, alias_) := splitAlias (unpacked name)
  return { type := userCharToType type, id := id, name := name, alias_ := alias_ }

/-- `fetch_line`: the line and what follows its end -/
def fetchLine (s : Chars) : Option (Chars × Chars) :=
  match s.dropWhile gAsciiIsspace with
  | [] => none
  | c :: cs =>
      let inLine := fun c => !(c = chLf || c = chCr)
      some (c :: cs.takeWhile inLine, (cs.dropWhile inLine).drop 1)

/-- The lines that `fetch_line` gives one after the other. Every line takes up a
character at least. -/
def fetchLines : Nat → Chars → List Chars
  | 0, _ => []
  | fuel + 1, s =>
      match fetchLine s with
      | none => []
      | some (line, rest) => line :: fetchLines fuel rest

def linesOf (s : Chars) : List Chars := fetchLines s.length s

/-- A line of `list_get`. The groups are the latest first, so that the current one is at
the head. -/
def getLine (l : MwSametimeList) (line : Chars) : Option MwSametimeList :=
  if line.head? = some chV then some (getVersion line l)
  else if line.head? = some chG then do
    let g ← getGroup line
    return { l with groups := g :: l.groups }
  else if line.head? = some chU then
    match l.groups with
    | [] => none
    | g :: gs => do
        let u ← getUser line
        return { l with groups := { g with users := g.users ++ [u] } :: gs }
  else some l

/-- `list_get` into a new list -/
def listGet (s : Chars) : Option MwSametimeList := (linesOf s).foldlM getLine {}

/-- `mwSametimeList_load` -/
def mwSametimeListLoad (data : Chars) : Option MwSametimeList :=
  (listGet data).map fun l => { l with groups := l.groups.reverse }

end Meanwhile.StList
