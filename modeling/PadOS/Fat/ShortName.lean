import PadOS.Core.ErrorCode
import PadOS.Core.Unicode

/-! # Short names

An 8.3 name is eleven bytes of code page 437, padded with blanks. This module has
the conversions between short names, UTF-16 and UTF-8, the test whether a name
needs a long-name entry, and the generation of an alias for one that does.
-/

namespace PadOS.Fat

open Unicode

/-- The upper half of code page 437. -/
def cp437Table : List Nat := [
  0x00c7, 0x00fc, 0x00e9, 0x00e2, 0x00e4, 0x00e0, 0x00e5, 0x00e7, 0x00ea, 0x00eb, 0x00e8, 0x00ef,
  0x00ee, 0x00ec, 0x00c4, 0x00c5, 0x00c9, 0x00e6, 0x00c6, 0x00f4, 0x00f6, 0x00f2, 0x00fb, 0x00f9,
  0x00ff, 0x00d6, 0x00dc, 0x00a2, 0x00a3, 0x00a5, 0x20a7, 0x0192, 0x00e1, 0x00ed, 0x00f3, 0x00fa,
  0x00f1, 0x00d1, 0x00aa, 0x00ba, 0x00bf, 0x2310, 0x00ac, 0x00bd, 0x00bc, 0x00a1, 0x00ab, 0x00bb,
  0x2591, 0x2592, 0x2593, 0x2502, 0x2524, 0x2561, 0x2562, 0x2556, 0x2555, 0x2563, 0x2551, 0x2557,
  0x255d, 0x255c, 0x255b, 0x2510, 0x2514, 0x2534, 0x252c, 0x251c, 0x2500, 0x253c, 0x255e, 0x255f,
  0x255a, 0x2554, 0x2569, 0x2566, 0x2560, 0x2550, 0x256c, 0x2567, 0x2568, 0x2564, 0x2565, 0x2559,
  0x2558, 0x2552, 0x2553, 0x256b, 0x256a, 0x2518, 0x250c, 0x2588, 0x2584, 0x258c, 0x2590, 0x2580,
  0x03b1, 0x00df, 0x0393, 0x03c0, 0x03a3, 0x03c3, 0x00b5, 0x03c4, 0x03a6, 0x0398, 0x03a9, 0x03b4,
  0x221e, 0x03c6, 0x03b5, 0x2229, 0x2261, 0x00b1, 0x2265, 0x2264, 0x2320, 0x2321, 0x00f7, 0x2248,
  0x00b0, 0x2219, 0x00b7, 0x221a, 0x207f, 0x00b2, 0x25a0, 0x00a0]

def utf16Table : List (Nat × UInt8) := [
  (0x00a0, 0xff), (0x00a1, 0xad), (0x00a2, 0x9b), (0x00a3, 0x9c), (0x00a5, 0x9d), (0x00aa, 0xa6),
  (0x00ab, 0xae), (0x00ac, 0xaa), (0x00b0, 0xf8), (0x00b1, 0xf1), (0x00b2, 0xfd), (0x00b5, 0xe6),
  (0x00b7, 0xfa), (0x00ba, 0xa7), (0x00bb, 0xaf), (0x00bc, 0xac), (0x00bd, 0xab), (0x00bf, 0xa8),
  (0x00c4, 0x8e), (0x00c5, 0x8f), (0x00c6, 0x92), (0x00c7, 0x80), (0x00c9, 0x90), (0x00d1, 0xa5),
  (0x00d6, 0x99), (0x00dc, 0x9a), (0x00df, 0xe1), (0x00e0, 0x85), (0x00e1, 0xa0), (0x00e2, 0x83),
  (0x00e4, 0x84), (0x00e5, 0x86), (0x00e6, 0x91), (0x00e7, 0x87), (0x00e8, 0x8a), (0x00e9, 0x82),
  (0x00ea, 0x88), (0x00eb, 0x89), (0x00ec, 0x8d), (0x00ed, 0xa1), (0x00ee, 0x8c), (0x00ef, 0x8b),
  (0x00f1, 0xa4), (0x00f2, 0x95), (0x00f3, 0xa2), (0x00f4, 0x93), (0x00f6, 0x94), (0x00f7, 0xf6),
  (0x00f9, 0x97), (0x00fa, 0xa3), (0x00fb, 0x96), (0x00fc, 0x81), (0x00ff, 0x98), (0x0192, 0x9f),
  (0x0393, 0xe2), (0x0398, 0xe9), (0x03a3, 0xe4), (0x03a6, 0xe8), (0x03a9, 0xea), (0x03b1, 0xe0),
  (0x03b4, 0xeb), (0x03b5, 0xee), (0x03c0, 0xe3), (0x03c3, 0xe5), (0x03c4, 0xe7), (0x03c6, 0xed),
  (0x207f, 0xfc), (0x20a7, 0x9e), (0x2219, 0xf9), (0x221a, 0xfb), (0x221e, 0xec), (0x2229, 0xef),
  (0x2248, 0xf7), (0x2261, 0xf0), (0x2264, 0xf3), (0x2265, 0xf2), (0x2310, 0xa9), (0x2320, 0xf4),
  (0x2321, 0xf5), (0x2500, 0xc4), (0x2502, 0xb3), (0x250c, 0xda), (0x2510, 0xbf), (0x2514, 0xc0),
  (0x2518, 0xd9), (0x251c, 0xc3), (0x2524, 0xb4), (0x252c, 0xc2), (0x2534, 0xc1), (0x253c, 0xc5),
  (0x2550, 0xcd), (0x2551, 0xba), (0x2552, 0xd5), (0x2553, 0xd6), (0x2554, 0xc9), (0x2555, 0xb8),
  (0x2556, 0xb7), (0x2557, 0xbb), (0x2558, 0xd4), (0x2559, 0xd3), (0x255a, 0xc8), (0x255b, 0xbe),
  (0x255c, 0xbd), (0x255d, 0xbc), (0x255e, 0xc6), (0x255f, 0xc7), (0x2560, 0xcc), (0x2561, 0xb5),
  (0x2562, 0xb6), (0x2563, 0xb9), (0x2564, 0xd1), (0x2565, 0xd2), (0x2566, 0xcb), (0x2567, 0xcf),
  (0x2568, 0xd0), (0x2569, 0xca), (0x256a, 0xd8), (0x256b, 0xd7), (0x256c, 0xce), (0x2580, 0xdf),
  (0x2584, 0xdc), (0x2588, 0xdb), (0x258c, 0xdd), (0x2590, 0xde), (0x2591, 0xb0), (0x2592, 0xb1),
  (0x2593, 0xb2), (0x25a0, 0xfe)]

def cp437ToUtf16 (cp437 : UInt8) : Nat :=
  if cp437 < 0x80 then cp437.toNat else cp437Table.getD (cp437.toNat - 0x80) 0

/-- The table is sorted; the search is for the first row that is not below. -/
def utf16ToCp437 (unicode : Nat) : Option UInt8 :=
  if unicode < 0x80 then some (.ofNat unicode)
  else
    match utf16Table.find? fun row => unicode ≤ row.1 with
    | some row => if row.1 = unicode then some row.2 else none
    | none => none

def lowercaseCharacters : List UInt8 := [0x81, 0x82, 0x84, 0x86, 0x87, 0x91, 0x94, 0xa4]
def uppercaseCharacters : List UInt8 := [0x9a, 0x90, 0x8e, 0x8f, 0x80, 0x92, 0x99, 0xa5]

def convertCp437CharacterCase (character : UInt8) (toLowercase : Bool) : UInt8 :=
  if toLowercase ∧ 0x41 ≤ character ∧ character ≤ 0x5a then character - 0x41 + 0x61
  else if !toLowercase ∧ 0x61 ≤ character ∧ character ≤ 0x7a then character - 0x61 + 0x41
  else
    let source := if toLowercase then uppercaseCharacters else lowercaseCharacters
    let destination := if toLowercase then lowercaseCharacters else uppercaseCharacters
    ((source.zip destination).lookup character).getD character

/-- `!#$%&'()-0-9@A-Z^_`{}~`. -/
def validShortNameCharacters : List UInt8 :=
  [0x21, 0x23, 0x24, 0x25, 0x26, 0x27, 0x28, 0x29, 0x2d] ++
    (List.range 10).map (fun i => .ofNat (0x30 + i)) ++ [0x40] ++
    (List.range 26).map (fun i => .ofNat (0x41 + i)) ++ [0x5e, 0x5f, 0x60, 0x7b, 0x7d, 0x7e]

/-- `strchr` also finds the terminator. -/
def strchr (characters : List UInt8) (character : UInt8) : Bool :=
  character == 0 || characters.contains character

/-- `\/:*?"<>|`. -/
def illegalCharacters : List Nat := [0x5c, 0x2f, 0x3a, 0x2a, 0x3f, 0x22, 0x3c, 0x3e, 0x7c]

def isCharacterValid (character : Nat) : Bool :=
  if character < 0x20 ∨ character = 0xfffe ∨ character = 0xffff then false
  else character ≥ 0x80 || !illegalCharacters.contains character

def underbarCharacters : List UInt8 :=
  [0x2b, 0x2c, 0x3b, 0x3d, 0x5b, 0x5d, 0x83, 0x85, 0x88, 0x89, 0x8a, 0x8b, 0x8c, 0x8d,
    0x93, 0x95, 0x96, 0x97, 0x98, 0xa0, 0xa1, 0xa2, 0xa3]

def filteredUtf16ToCp437 (utf16 : Nat) : Option UInt8 :=
  match utf16ToCp437 utf16 with
  | none => none
  | some character =>
    let uppercaseCharacter := convertCp437CharacterCase character false
    if uppercaseCharacter ≠ character then some uppercaseCharacter
    else if strchr underbarCharacters character then some 0x5f
    else if strchr validShortNameCharacters character ∨
        convertCp437CharacterCase character true ≠ character then some character
    else none

/-! ## The 8.3 form of a name -/

/-- The case seen so far in one component of a name. -/
structure ComponentCase where
  hasUppercase : Bool := false
  hasLowercase : Bool := false

/-- `none` when the character does not go into an 8.3 component. -/
def isShortNameCharacterCompatible (character : UInt8) (case : ComponentCase) :
    Option ComponentCase :=
  let uppercaseCharacter := convertCp437CharacterCase character false
  let isCasedCharacter := convertCp437CharacterCase uppercaseCharacter true != uppercaseCharacter
  if !strchr validShortNameCharacters uppercaseCharacter ∧ !isCasedCharacter then none
  else if uppercaseCharacter ≠ character then
    if case.hasUppercase then none else some { case with hasLowercase := true }
  else if isCasedCharacter then
    if case.hasLowercase then none else some { case with hasUppercase := true }
  else some case

def shortNameLowercaseBase : Nat := 0x08
def shortNameLowercaseExtension : Nat := 0x10

/-- The characters of a component, up to a limit and, for the base, a period:
what is left of the name, or `none` when a character does not fit. -/
def scanComponent (stopAtPeriod : Bool) : Nat → List Nat → ComponentCase →
    Option (List Nat × ComponentCase)
  | 0, name, case => some (name, case)
  | _ + 1, [], case => some ([], case)
  | limit + 1, unit :: rest, case =>
    if stopAtPeriod ∧ unit = 0x2e then some (unit :: rest, case)
    else
      match utf16ToCp437 unit with
      | none => none
      | some character =>
        match isShortNameCharacterCompatible character case with
        | none => none
        | some case => scanComponent stopAtPeriod limit rest case

/-- `none` when the name requires a long-name entry, else the case flags. -/
def shortNameCaseFlags (longName : List Nat) : Option Nat :=
  match scanComponent true 8 longName {} with
  | none => none
  | some (rest, base) =>
    let baseFlag := if base.hasLowercase then shortNameLowercaseBase else 0
    match rest with
    | [] => some baseFlag
    | period :: extension =>
      if rest.length = longName.length then none
      else if period ≠ 0x2e then none
      else if extension = [] then none
      else
        match scanComponent false 3 extension {} with
        | some ([], ext) =>
          some (baseFlag ||| (if ext.hasLowercase then shortNameLowercaseExtension else 0))
        | _ => none

/-! ## Aliases -/

def pad (length : Nat) (name : List UInt8) : List UInt8 :=
  name ++ List.replicate (length - name.length) 0x20

/-- The base of an alias, and whether the name ended at a terminator. -/
def generateBase : List Nat → List UInt8 → Except PErrorCode (List UInt8 × Bool)
  | [], base => .ok (base, false)
  | unit :: rest, base =>
    if base.length = 8 then .ok (base, false)
    else if unit = 0 then .ok (base, true)
    else if unit = 0x2e then
      if base = [] then generateBase rest base else .ok (base, false)
    else if !isCharacterValid unit then .error .inval
    else generateBase rest (base ++ (filteredUtf16ToCp437 unit).toList)

def generateExtension : List Nat → List UInt8 → Except PErrorCode (List UInt8)
  | [], extension => .ok extension
  | unit :: rest, extension =>
    if extension.length = 3 then .ok extension
    else if unit = 0 then .ok extension
    else if !isCharacterValid unit then .error .inval
    else generateExtension rest (extension ++ (filteredUtf16ToCp437 unit).toList)

/-- What follows the last period. -/
def afterLastPeriod (longName : List Nat) : Option (List Nat) :=
  if longName.contains 0x2e then some (longName.reverse.takeWhile (· ≠ 0x2e)).reverse else none

def generateShortName (longName : List Nat) : Except PErrorCode (List UInt8) :=
  match generateBase longName [] with
  | .error code => .error code
  | .ok (base, terminated) =>
    let base := pad 8 (if base = [] then [0x5f] else base)
    if terminated then .ok (pad 11 base)
    else
      match afterLastPeriod longName with
      | none => .ok (pad 11 base)
      | some extension =>
        match generateExtension extension [] with
        | .error code => .error code
        | .ok extension => .ok (pad 11 (base ++ extension))

end PadOS.Fat
