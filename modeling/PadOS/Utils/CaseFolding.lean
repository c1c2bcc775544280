import PadOS.Core.BinarySearch

/-! # The case folding of a character

The foldings of the characters outside ASCII stand in two sorted tables: ranges whose characters
are folded alike, and single characters, some of which are folded to more than one. Both are
searched by halving.
-/

namespace PadOS.Utils

open BinarySearch List

/-- Every `stride`-th of the characters from `first` on is folded to the one at a distance
`delta`. -/
structure UnicodeCaseFoldRange where
  first : Nat
  delta : Int
  count : Nat
  stride : Nat

/-- A character that is folded to one character, or to a part of the expansions. -/
structure UnicodeCaseFoldMapping where
  source : Nat
  mapping : Nat

def unicodeCaseFoldExpansionFlag : Nat := 0x80000000

def unicodeCaseFoldExpansionLengthMask : Nat := 0x00000003

def unicodeCaseFoldRanges : List UnicodeCaseFoldRange :=
  [⟨0xc0, 32, 23, 1⟩, ⟨0xd8, 32, 7, 1⟩, ⟨0x100, 1, 24, 2⟩, ⟨0x132, 1, 3, 2⟩, ⟨0x139, 1, 8, 2⟩,
   ⟨0x14a, 1, 23, 2⟩, ⟨0x179, 1, 3, 2⟩, ⟨0x182, 1, 2, 2⟩, ⟨0x189, 205, 2, 1⟩, ⟨0x1a0, 1, 3, 2⟩,
   ⟨0x1b1, 217, 2, 1⟩, ⟨0x1b3, 1, 2, 2⟩, ⟨0x1cb, 1, 9, 2⟩, ⟨0x1de, 1, 9, 2⟩, ⟨0x1f2, 1, 2, 2⟩,
   ⟨0x1f8, 1, 20, 2⟩, ⟨0x222, 1, 9, 2⟩, ⟨0x246, 1, 5, 2⟩, ⟨0x370, 1, 2, 2⟩, ⟨0x388, 37, 3, 1⟩,
   ⟨0x38e, 63, 2, 1⟩, ⟨0x391, 32, 17, 1⟩, ⟨0x3a3, 32, 9, 1⟩, ⟨0x3d8, 1, 12, 2⟩, ⟨0x3fd, -130, 3, 1⟩,
   ⟨0x400, 80, 16, 1⟩, ⟨0x410, 32, 32, 1⟩, ⟨0x460, 1, 17, 2⟩, ⟨0x48a, 1, 27, 2⟩, ⟨0x4c1, 1, 7, 2⟩,
   ⟨0x4d0, 1, 48, 2⟩, ⟨0x531, 48, 38, 1⟩, ⟨0x10a0, 7264, 38, 1⟩, ⟨0x13f8, -8, 6, 1⟩,
   ⟨0x1c83, -6210, 2, 1⟩, ⟨0x1c90, -3008, 43, 1⟩, ⟨0x1cbd, -3008, 3, 1⟩, ⟨0x1e00, 1, 75, 2⟩,
   ⟨0x1ea0, 1, 48, 2⟩, ⟨0x1f08, -8, 8, 1⟩, ⟨0x1f18, -8, 6, 1⟩, ⟨0x1f28, -8, 8, 1⟩,
   ⟨0x1f38, -8, 8, 1⟩, ⟨0x1f48, -8, 6, 1⟩, ⟨0x1f59, -8, 4, 2⟩, ⟨0x1f68, -8, 8, 1⟩,
   ⟨0x1fb8, -8, 2, 1⟩, ⟨0x1fba, -74, 2, 1⟩, ⟨0x1fc8, -86, 4, 1⟩, ⟨0x1fd8, -8, 2, 1⟩,
   ⟨0x1fda, -100, 2, 1⟩, ⟨0x1fe8, -8, 2, 1⟩, ⟨0x1fea, -112, 2, 1⟩, ⟨0x1ff8, -128, 2, 1⟩,
   ⟨0x1ffa, -126, 2, 1⟩, ⟨0x2160, 16, 16, 1⟩, ⟨0x24b6, 26, 26, 1⟩, ⟨0x2c00, 48, 48, 1⟩,
   ⟨0x2c67, 1, 3, 2⟩, ⟨0x2c7e, -10815, 2, 1⟩, ⟨0x2c80, 1, 50, 2⟩, ⟨0x2ceb, 1, 2, 2⟩,
   ⟨0xa640, 1, 23, 2⟩, ⟨0xa680, 1, 14, 2⟩, ⟨0xa722, 1, 7, 2⟩, ⟨0xa732, 1, 31, 2⟩, ⟨0xa779, 1, 2, 2⟩,
   ⟨0xa77e, 1, 5, 2⟩, ⟨0xa790, 1, 2, 2⟩, ⟨0xa796, 1, 10, 2⟩, ⟨0xa7b4, 1, 8, 2⟩, ⟨0xa7c7, 1, 2, 2⟩,
   ⟨0xa7cc, 1, 8, 2⟩, ⟨0xab70, -38864, 80, 1⟩, ⟨0xff21, 32, 26, 1⟩, ⟨0x10400, 40, 40, 1⟩,
   ⟨0x104b0, 40, 36, 1⟩, ⟨0x10570, 39, 11, 1⟩, ⟨0x1057c, 39, 15, 1⟩, ⟨0x1058c, 39, 7, 1⟩,
   ⟨0x10594, 39, 2, 1⟩, ⟨0x10c80, 64, 51, 1⟩, ⟨0x10d50, 32, 22, 1⟩, ⟨0x118a0, 32, 32, 1⟩,
   ⟨0x16e40, 32, 32, 1⟩, ⟨0x16ea0, 27, 25, 1⟩, ⟨0x1e900, 34, 34, 1⟩]

def unicodeCaseFoldMappings : List UnicodeCaseFoldMapping :=
  [⟨0xb5, 0x3bc⟩, ⟨0xdf, 0x80000002⟩, ⟨0x130, 0x8000000a⟩, ⟨0x149, 0x80000012⟩, ⟨0x178, 0xff⟩,
   ⟨0x17f, 0x73⟩, ⟨0x181, 0x253⟩, ⟨0x186, 0x254⟩, ⟨0x187, 0x188⟩, ⟨0x18b, 0x18c⟩, ⟨0x18e, 0x1dd⟩,
   ⟨0x18f, 0x259⟩, ⟨0x190, 0x25b⟩, ⟨0x191, 0x192⟩, ⟨0x193, 0x260⟩, ⟨0x194, 0x263⟩, ⟨0x196, 0x269⟩,
   ⟨0x197, 0x268⟩, ⟨0x198, 0x199⟩, ⟨0x19c, 0x26f⟩, ⟨0x19d, 0x272⟩, ⟨0x19f, 0x275⟩, ⟨0x1a6, 0x280⟩,
   ⟨0x1a7, 0x1a8⟩, ⟨0x1a9, 0x283⟩, ⟨0x1ac, 0x1ad⟩, ⟨0x1ae, 0x288⟩, ⟨0x1af, 0x1b0⟩, ⟨0x1b7, 0x292⟩,
   ⟨0x1b8, 0x1b9⟩, ⟨0x1bc, 0x1bd⟩, ⟨0x1c4, 0x1c6⟩, ⟨0x1c5, 0x1c6⟩, ⟨0x1c7, 0x1c9⟩, ⟨0x1c8, 0x1c9⟩,
   ⟨0x1ca, 0x1cc⟩, ⟨0x1f0, 0x8000001a⟩, ⟨0x1f1, 0x1f3⟩, ⟨0x1f6, 0x195⟩, ⟨0x1f7, 0x1bf⟩,
   ⟨0x220, 0x19e⟩, ⟨0x23a, 0x2c65⟩, ⟨0x23b, 0x23c⟩, ⟨0x23d, 0x19a⟩, ⟨0x23e, 0x2c66⟩, ⟨0x241, 0x242⟩,
   ⟨0x243, 0x180⟩, ⟨0x244, 0x289⟩, ⟨0x245, 0x28c⟩, ⟨0x345, 0x3b9⟩, ⟨0x376, 0x377⟩, ⟨0x37f, 0x3f3⟩,
   ⟨0x386, 0x3ac⟩, ⟨0x38c, 0x3cc⟩, ⟨0x390, 0x80000023⟩, ⟨0x3b0, 0x8000002f⟩, ⟨0x3c2, 0x3c3⟩,
   ⟨0x3cf, 0x3d7⟩, ⟨0x3d0, 0x3b2⟩, ⟨0x3d1, 0x3b8⟩, ⟨0x3d5, 0x3c6⟩, ⟨0x3d6, 0x3c0⟩, ⟨0x3f0, 0x3ba⟩,
   ⟨0x3f1, 0x3c1⟩, ⟨0x3f4, 0x3b8⟩, ⟨0x3f5, 0x3b5⟩, ⟨0x3f7, 0x3f8⟩, ⟨0x3f9, 0x3f2⟩, ⟨0x3fa, 0x3fb⟩,
   ⟨0x4c0, 0x4cf⟩, ⟨0x587, 0x8000003a⟩, ⟨0x10c7, 0x2d27⟩, ⟨0x10cd, 0x2d2d⟩, ⟨0x1c80, 0x432⟩,
   ⟨0x1c81, 0x434⟩, ⟨0x1c82, 0x43e⟩, ⟨0x1c85, 0x442⟩, ⟨0x1c86, 0x44a⟩, ⟨0x1c87, 0x463⟩,
   ⟨0x1c88, 0xa64b⟩, ⟨0x1c89, 0x1c8a⟩, ⟨0x1e96, 0x80000042⟩, ⟨0x1e97, 0x8000004a⟩,
   ⟨0x1e98, 0x80000052⟩, ⟨0x1e99, 0x8000005a⟩, ⟨0x1e9a, 0x80000062⟩, ⟨0x1e9b, 0x1e61⟩,
   ⟨0x1e9e, 0x8000006a⟩, ⟨0x1f50, 0x80000072⟩, ⟨0x1f52, 0x8000007b⟩, ⟨0x1f54, 0x80000087⟩,
   ⟨0x1f56, 0x80000093⟩, ⟨0x1f80, 0x8000009e⟩, ⟨0x1f81, 0x800000a6⟩, ⟨0x1f82, 0x800000ae⟩,
   ⟨0x1f83, 0x800000b6⟩, ⟨0x1f84, 0x800000be⟩, ⟨0x1f85, 0x800000c6⟩, ⟨0x1f86, 0x800000ce⟩,
   ⟨0x1f87, 0x800000d6⟩, ⟨0x1f88, 0x800000de⟩, ⟨0x1f89, 0x800000e6⟩, ⟨0x1f8a, 0x800000ee⟩,
   ⟨0x1f8b, 0x800000f6⟩, ⟨0x1f8c, 0x800000fe⟩, ⟨0x1f8d, 0x80000106⟩, ⟨0x1f8e, 0x8000010e⟩,
   ⟨0x1f8f, 0x80000116⟩, ⟨0x1f90, 0x8000011e⟩, ⟨0x1f91, 0x80000126⟩, ⟨0x1f92, 0x8000012e⟩,
   ⟨0x1f93, 0x80000136⟩, ⟨0x1f94, 0x8000013e⟩, ⟨0x1f95, 0x80000146⟩, ⟨0x1f96, 0x8000014e⟩,
   ⟨0x1f97, 0x80000156⟩, ⟨0x1f98, 0x8000015e⟩, ⟨0x1f99, 0x80000166⟩, ⟨0x1f9a, 0x8000016e⟩,
   ⟨0x1f9b, 0x80000176⟩, ⟨0x1f9c, 0x8000017e⟩, ⟨0x1f9d, 0x80000186⟩, ⟨0x1f9e, 0x8000018e⟩,
   ⟨0x1f9f, 0x80000196⟩, ⟨0x1fa0, 0x8000019e⟩, ⟨0x1fa1, 0x800001a6⟩, ⟨0x1fa2, 0x800001ae⟩,
   ⟨0x1fa3, 0x800001b6⟩, ⟨0x1fa4, 0x800001be⟩, ⟨0x1fa5, 0x800001c6⟩, ⟨0x1fa6, 0x800001ce⟩,
   ⟨0x1fa7, 0x800001d6⟩, ⟨0x1fa8, 0x800001de⟩, ⟨0x1fa9, 0x800001e6⟩, ⟨0x1faa, 0x800001ee⟩,
   ⟨0x1fab, 0x800001f6⟩, ⟨0x1fac, 0x800001fe⟩, ⟨0x1fad, 0x80000206⟩, ⟨0x1fae, 0x8000020e⟩,
   ⟨0x1faf, 0x80000216⟩, ⟨0x1fb2, 0x8000021e⟩, ⟨0x1fb3, 0x80000226⟩, ⟨0x1fb4, 0x8000022e⟩,
   ⟨0x1fb6, 0x80000236⟩, ⟨0x1fb7, 0x8000023f⟩, ⟨0x1fbc, 0x8000024a⟩, ⟨0x1fbe, 0x3b9⟩,
   ⟨0x1fc2, 0x80000252⟩, ⟨0x1fc3, 0x8000025a⟩, ⟨0x1fc4, 0x80000262⟩, ⟨0x1fc6, 0x8000026a⟩,
   ⟨0x1fc7, 0x80000273⟩, ⟨0x1fcc, 0x8000027e⟩, ⟨0x1fd2, 0x80000287⟩, ⟨0x1fd3, 0x80000293⟩,
   ⟨0x1fd6, 0x8000029e⟩, ⟨0x1fd7, 0x800002a7⟩, ⟨0x1fe2, 0x800002b3⟩, ⟨0x1fe3, 0x800002bf⟩,
   ⟨0x1fe4, 0x800002ca⟩, ⟨0x1fe6, 0x800002d2⟩, ⟨0x1fe7, 0x800002db⟩, ⟨0x1fec, 0x1fe5⟩,
   ⟨0x1ff2, 0x800002e6⟩, ⟨0x1ff3, 0x800002ee⟩, ⟨0x1ff4, 0x800002f6⟩, ⟨0x1ff6, 0x800002fe⟩,
   ⟨0x1ff7, 0x80000307⟩, ⟨0x1ffc, 0x80000312⟩, ⟨0x2126, 0x3c9⟩, ⟨0x212a, 0x6b⟩, ⟨0x212b, 0xe5⟩,
   ⟨0x2132, 0x214e⟩, ⟨0x2183, 0x2184⟩, ⟨0x2c60, 0x2c61⟩, ⟨0x2c62, 0x26b⟩, ⟨0x2c63, 0x1d7d⟩,
   ⟨0x2c64, 0x27d⟩, ⟨0x2c6d, 0x251⟩, ⟨0x2c6e, 0x271⟩, ⟨0x2c6f, 0x250⟩, ⟨0x2c70, 0x252⟩,
   ⟨0x2c72, 0x2c73⟩, ⟨0x2c75, 0x2c76⟩, ⟨0x2cf2, 0x2cf3⟩, ⟨0xa77d, 0x1d79⟩, ⟨0xa78b, 0xa78c⟩,
   ⟨0xa78d, 0x265⟩, ⟨0xa7aa, 0x266⟩, ⟨0xa7ab, 0x25c⟩, ⟨0xa7ac, 0x261⟩, ⟨0xa7ad, 0x26c⟩,
   ⟨0xa7ae, 0x26a⟩, ⟨0xa7b0, 0x29e⟩, ⟨0xa7b1, 0x287⟩, ⟨0xa7b2, 0x29d⟩, ⟨0xa7b3, 0xab53⟩,
   ⟨0xa7c4, 0xa794⟩, ⟨0xa7c5, 0x282⟩, ⟨0xa7c6, 0x1d8e⟩, ⟨0xa7cb, 0x264⟩, ⟨0xa7dc, 0x19b⟩,
   ⟨0xa7f5, 0xa7f6⟩, ⟨0xfb00, 0x8000031a⟩, ⟨0xfb01, 0x80000322⟩, ⟨0xfb02, 0x8000032a⟩,
   ⟨0xfb03, 0x80000333⟩, ⟨0xfb04, 0x8000033f⟩, ⟨0xfb05, 0x8000034a⟩, ⟨0xfb06, 0x80000352⟩,
   ⟨0xfb13, 0x8000035a⟩, ⟨0xfb14, 0x80000362⟩, ⟨0xfb15, 0x8000036a⟩, ⟨0xfb16, 0x80000372⟩,
   ⟨0xfb17, 0x8000037a⟩]

def unicodeCaseFoldExpansionCharacters : List Nat :=
  [0x73, 0x73, 0x69, 0x307, 0x2bc, 0x6e, 0x6a, 0x30c, 0x3b9, 0x308, 0x301, 0x3c5, 0x308, 0x301,
    0x565, 0x582,
   0x68, 0x331, 0x74, 0x308, 0x77, 0x30a, 0x79, 0x30a, 0x61, 0x2be, 0x73, 0x73, 0x3c5, 0x313,
     0x3c5, 0x313,
   0x300, 0x3c5, 0x313, 0x301, 0x3c5, 0x313, 0x342, 0x1f00, 0x3b9, 0x1f01, 0x3b9, 0x1f02, 0x3b9,
     0x1f03, 0x3b9,
   0x1f04, 0x3b9, 0x1f05, 0x3b9, 0x1f06, 0x3b9, 0x1f07, 0x3b9, 0x1f00, 0x3b9, 0x1f01, 0x3b9,
     0x1f02, 0x3b9,
   0x1f03, 0x3b9, 0x1f04, 0x3b9, 0x1f05, 0x3b9, 0x1f06, 0x3b9, 0x1f07, 0x3b9, 0x1f20, 0x3b9,
     0x1f21, 0x3b9,
   0x1f22, 0x3b9, 0x1f23, 0x3b9, 0x1f24, 0x3b9, 0x1f25, 0x3b9, 0x1f26, 0x3b9, 0x1f27, 0x3b9,
     0x1f20, 0x3b9,
   0x1f21, 0x3b9, 0x1f22, 0x3b9, 0x1f23, 0x3b9, 0x1f24, 0x3b9, 0x1f25, 0x3b9, 0x1f26, 0x3b9,
     0x1f27, 0x3b9,
   0x1f60, 0x3b9, 0x1f61, 0x3b9, 0x1f62, 0x3b9, 0x1f63, 0x3b9, 0x1f64, 0x3b9, 0x1f65, 0x3b9,
     0x1f66, 0x3b9,
   0x1f67, 0x3b9, 0x1f60, 0x3b9, 0x1f61, 0x3b9, 0x1f62, 0x3b9, 0x1f63, 0x3b9, 0x1f64, 0x3b9,
     0x1f65, 0x3b9,
   0x1f66, 0x3b9, 0x1f67, 0x3b9, 0x1f70, 0x3b9, 0x3b1, 0x3b9, 0x3ac, 0x3b9, 0x3b1, 0x342, 0x3b1,
     0x342, 0x3b9,
   0x3b1, 0x3b9, 0x1f74, 0x3b9, 0x3b7, 0x3b9, 0x3ae, 0x3b9, 0x3b7, 0x342, 0x3b7, 0x342, 0x3b9,
     0x3b7, 0x3b9,
   0x3b9, 0x308, 0x300, 0x3b9, 0x308, 0x301, 0x3b9, 0x342, 0x3b9, 0x308, 0x342, 0x3c5, 0x308,
     0x300, 0x3c5,
   0x308, 0x301, 0x3c1, 0x313, 0x3c5, 0x342, 0x3c5, 0x308, 0x342, 0x1f7c, 0x3b9, 0x3c9, 0x3b9,
     0x3ce, 0x3b9,
   0x3c9, 0x342, 0x3c9, 0x342, 0x3b9, 0x3c9, 0x3b9, 0x66, 0x66, 0x66, 0x69, 0x66, 0x6c, 0x66, 0x66,
     0x69, 0x66,
   0x66, 0x6c, 0x73, 0x74, 0x73, 0x74, 0x574, 0x576, 0x574, 0x565, 0x574, 0x56b, 0x57e, 0x576,
     0x574, 0x56d]

/-! ## Searching the tables -/

namespace UnicodeCaseFoldRange

def last (range : UnicodeCaseFoldRange) : Nat := range.first + (range.count - 1) * range.stride

def against (character : Nat) (range : UnicodeCaseFoldRange) : Ordering :=
  if character < range.first then .lt else if character > range.last then .gt else .eq

def fold (character : Nat) (range : UnicodeCaseFoldRange) : Nat :=
  ((character : Int) + range.delta).toNat

end UnicodeCaseFoldRange

namespace UnicodeCaseFoldMapping

def against (character : Nat) (mapping : UnicodeCaseFoldMapping) : Ordering :=
  if character < mapping.source then .lt else if character > mapping.source then .gt else .eq

def fold (mapping : UnicodeCaseFoldMapping) : List Nat :=
  if mapping.mapping &&& unicodeCaseFoldExpansionFlag = 0 then [mapping.mapping]
  else
    let expansionLength := mapping.mapping &&& unicodeCaseFoldExpansionLengthMask
    let expansionOffset := (mapping.mapping - unicodeCaseFoldExpansionFlag - expansionLength) >>> 2
    (range expansionLength).map fun i =>
      unicodeCaseFoldExpansionCharacters.getD (expansionOffset + i) 0

end UnicodeCaseFoldMapping

def foldByMapping (character : Nat) : List Nat :=
  match lookup (UnicodeCaseFoldMapping.against character) unicodeCaseFoldMappings with
  | some mapping => mapping.fold
  | none => [character]

def unicodeCaseFoldNonAscii (character : Nat) : List Nat :=
  match lookup (UnicodeCaseFoldRange.against character) unicodeCaseFoldRanges with
  | some range =>
    if range.stride = 1 ∨ (character - range.first) &&& 1 = 0 then [range.fold character]
    else foldByMapping character
  | none => foldByMapping character

def unicodeCaseFoldAsciiCharacter (character : Nat) : Nat :=
  if 0x41 ≤ character ∧ character ≤ 0x5a then character + (0x61 - 0x41) else character

/-! ## What the tables say -/

/-- The range folds the character: it is inside, at a multiple of the stride. -/
def UnicodeCaseFoldRange.folds (range : UnicodeCaseFoldRange) (character : Nat) : Bool :=
  range.first ≤ character && character ≤
    range.last && (range.stride == 1 || (character - range.first) % 2 == 0)

/-- The full case folding of a character. -/
def fullCaseFolding (character : Nat) : List Nat :=
  if character < 0x80 then [unicodeCaseFoldAsciiCharacter character]
  else
    match unicodeCaseFoldRanges.find? (·.folds character) with
    | some range => [range.fold character]
    | none =>
      match unicodeCaseFoldMappings.find? (·.source == character) with
      | some mapping => mapping.fold
      | none => [character]

theorem ranges_ordered :
    unicodeCaseFoldRanges.Pairwise fun r r' => r.first ≤ r.last ∧ r.last < r'.first ∧
    r'.first ≤ r'.last := by
  have trans : IsTrans UnicodeCaseFoldRange fun r r' => r.first ≤ r.last ∧ r.last < r'.first ∧
      r'.first ≤ r'.last := ⟨fun _ _ _ before behind => by omega⟩
  apply isChain_iff_pairwise.1
  simp only [UnicodeCaseFoldRange.last]
  decide +kernel

theorem mappings_ordered : unicodeCaseFoldMappings.Pairwise fun m m' => m.source < m'.source := by
  have trans : IsTrans UnicodeCaseFoldMapping fun m m' => m.source < m'.source :=
    ⟨fun _ _ _ => Nat.lt_trans⟩
  apply isChain_iff_pairwise.1
  decide +kernel

theorem ranges_inOrder (character : Nat) :
    InOrder (UnicodeCaseFoldRange.against character) unicodeCaseFoldRanges := by
  apply ranges_ordered.imp
  intro r r' ordered
  unfold UnicodeCaseFoldRange.against
  constructor
  · intro notBehind
    apply if_pos
    by_contra here
    exact notBehind (by rw [if_neg (by omega), if_pos (by omega)])
  · intro notBefore
    have here : ¬character < r'.first := fun before => notBefore (if_pos before)
    rw [if_neg (by omega), if_pos (by omega)]

theorem mappings_inOrder (character : Nat) :
    InOrder (UnicodeCaseFoldMapping.against character) unicodeCaseFoldMappings := by
  apply mappings_ordered.imp
  intro m m' ordered
  unfold UnicodeCaseFoldMapping.against
  constructor
  · intro notBehind
    apply if_pos
    by_contra here
    exact notBehind (by rw [if_neg (by omega), if_pos (by omega)])
  · intro notBefore
    have here : ¬character < m'.source := fun before => notBefore (if_pos before)
    rw [if_neg (by omega), if_pos (by omega)]

variable {character : Nat}

theorem range_against_eq {range : UnicodeCaseFoldRange} : range.against character = .eq ↔
    range.first ≤ character ∧ character ≤ range.last := by
  unfold UnicodeCaseFoldRange.against
  split
  · simp; omega
  · split
    · simp; omega
    · simp; omega

theorem mapping_against_eq {mapping : UnicodeCaseFoldMapping} : mapping.against character = .eq ↔
    mapping.source = character := by
  unfold UnicodeCaseFoldMapping.against
  split
  · simp; omega
  · split
    · simp; omega
    · simp; omega

theorem foldByMapping_eq (character : Nat) : foldByMapping character =
    match unicodeCaseFoldMappings.find? (·.source == character) with
    | some mapping => mapping.fold
    | none => [character] := by
  unfold foldByMapping
  cases found : lookup (UnicodeCaseFoldMapping.against character) unicodeCaseFoldMappings with
  | some mapping =>
    obtain ⟨member, equal⟩ := lookup_eq_some found
    have some' : unicodeCaseFoldMappings.find? (·.source == character) = some mapping := by
      cases first : unicodeCaseFoldMappings.find? (·.source == character) with
      | none =>
        have other := List.find?_eq_none.1 first mapping member
        exact absurd (beq_iff_eq.2 (mapping_against_eq.1 equal)) other
      | some mapping' =>
        have source : mapping'.source = character := by simpa using List.find?_some first
        exact congrArg some
          ((mappings_inOrder character).unique (mem_of_find?_eq_some first) member
          (mapping_against_eq.2 source) equal)
    rw [some']
  | none =>
    have none' : unicodeCaseFoldMappings.find? (·.source == character) = none := by
      apply List.find?_eq_none.2
      intro mapping member source
      exact lookup_eq_none (mappings_inOrder character) found member
        (mapping_against_eq.2 (beq_iff_eq.1 source))
    rw [none']

theorem folds_iff {range : UnicodeCaseFoldRange} : range.folds character ↔
    range.against character = .eq ∧ (range.stride = 1 ∨ (character - range.first) &&& 1 = 0) := by
  rw [range_against_eq, Nat.and_one_is_mod]
  simp [UnicodeCaseFoldRange.folds]

/-- The search finds what the tables say. -/
theorem unicodeCaseFoldNonAscii_eq (outside : ¬character < 0x80) :
    unicodeCaseFoldNonAscii character = fullCaseFolding character := by
  have only (range : UnicodeCaseFoldRange) (member : range ∈ unicodeCaseFoldRanges)
      (equal : range.against character = .eq) (range' : UnicodeCaseFoldRange)
      (first : unicodeCaseFoldRanges.find? (·.folds character) = some range') :
      range' = range ∧ range'.folds character := by
    have folds : range'.folds character := by simpa using List.find?_some first
    exact ⟨(ranges_inOrder character).unique (mem_of_find?_eq_some first) member
      (folds_iff.1 folds).1 equal, folds⟩
  unfold unicodeCaseFoldNonAscii fullCaseFolding
  rw [if_neg outside, foldByMapping_eq]
  cases found : lookup (UnicodeCaseFoldRange.against character) unicodeCaseFoldRanges with
  | some range =>
    obtain ⟨member, equal⟩ := lookup_eq_some found
    dsimp only
    split
    · rename_i stride
      have some' : unicodeCaseFoldRanges.find? (·.folds character) = some range := by
        cases first : unicodeCaseFoldRanges.find? (·.folds character) with
        | none =>
          exact absurd (folds_iff.2 ⟨equal, stride⟩) (List.find?_eq_none.1 first range member)
        | some range' => exact congrArg some (only range member equal range' first).1
      rw [some']
    · rename_i stride
      have none' : unicodeCaseFoldRanges.find? (·.folds character) = none := by
        cases first : unicodeCaseFoldRanges.find? (·.folds character) with
        | none => rfl
        | some range' =>
          obtain ⟨same, folds⟩ := only range member equal range' first
          rw [same] at folds
          exact absurd (folds_iff.1 folds).2 stride
      rw [none']
  | none =>
    have none' : unicodeCaseFoldRanges.find? (·.folds character) = none := by
      apply List.find?_eq_none.2
      intro range member folds
      exact lookup_eq_none (ranges_inOrder character) found member (folds_iff.1 folds).1
    rw [none']

theorem expansions_nonempty :
    ∀ mapping ∈ unicodeCaseFoldMappings, mapping.fold ≠ [] ∧ mapping.fold.length ≤ 3 := by
  decide +kernel

/-- A character is folded to one, two or three. -/
theorem fullCaseFolding_length (character : Nat) : 0 < (fullCaseFolding character).length ∧
    (fullCaseFolding character).length ≤ 3 := by
  unfold fullCaseFolding
  split
  · simp
  · split
    · simp
    · split
      · rename_i mapping first
        have bounds := expansions_nonempty mapping (mem_of_find?_eq_some first)
        exact ⟨length_pos_iff.2 bounds.1, bounds.2⟩
      · simp

end PadOS.Utils
