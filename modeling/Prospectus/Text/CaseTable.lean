/-!
# Simple case folding: the table

Characters that simple case folding makes one are variants of each other. Most of them come in
pairs at a fixed distance; a run of such pairs is one entry of the table. The few groups of more
than two are listed one by one.
-/

namespace Prospectus.Text

/-- The pairs `c` and `c + distance` for every `c` from `first` to `last` by steps of `stride`. -/
structure CaseRun where
  first : Nat
  last : Nat
  stride : Nat
  distance : Nat

namespace CaseRun

private abbrev run (first last stride distance : Nat) : CaseRun := ⟨first, last, stride, distance⟩

/-- All runs of pairs. -/
def table : List CaseRun := [
  run 0x41 0x4a 1 32, run 0x4c 0x52 1 32, run 0x54 0x5a 1 32, run 0xc0 0xc4 1 32,
  run 0xc6 0xd6 1 32, run 0xd8 0xde 1 32, run 0xdf 0xdf 1 7615, run 0xff 0xff 1 121,
  run 0x100 0x12e 2 1, run 0x132 0x136 2 1, run 0x139 0x147 2 1, run 0x14a 0x176 2 1,
  run 0x179 0x17d 2 1, run 0x180 0x180 1 195, run 0x181 0x181 1 210, run 0x182 0x184 2 1,
  run 0x186 0x186 1 206, run 0x187 0x187 1 1, run 0x189 0x18a 1 205, run 0x18b 0x18b 1 1,
  run 0x18e 0x18e 1 79, run 0x18f 0x18f 1 202, run 0x190 0x190 1 203, run 0x191 0x191 1 1,
  run 0x193 0x193 1 205, run 0x194 0x194 1 207, run 0x195 0x195 1 97, run 0x196 0x196 1 211,
  run 0x197 0x197 1 209, run 0x198 0x198 1 1, run 0x19a 0x19a 1 163, run 0x19c 0x19c 1 211,
  run 0x19d 0x19d 1 213, run 0x19e 0x19e 1 130, run 0x19f 0x19f 1 214, run 0x1a0 0x1a4 2 1,
  run 0x1a6 0x1a6 1 218, run 0x1a7 0x1a7 1 1, run 0x1a9 0x1a9 1 218, run 0x1ac 0x1ac 1 1,
  run 0x1ae 0x1ae 1 218, run 0x1af 0x1af 1 1, run 0x1b1 0x1b2 1 217, run 0x1b3 0x1b5 2 1,
  run 0x1b7 0x1b7 1 219, run 0x1b8 0x1b8 1 1, run 0x1bc 0x1bc 1 1, run 0x1bf 0x1bf 1 56,
  run 0x1cd 0x1db 2 1, run 0x1de 0x1ee 2 1, run 0x1f4 0x1f4 1 1, run 0x1f8 0x21e 2 1,
  run 0x222 0x232 2 1, run 0x23a 0x23a 1 10795, run 0x23b 0x23b 1 1, run 0x23e 0x23e 1 10792,
  run 0x23f 0x240 1 10815, run 0x241 0x241 1 1, run 0x244 0x244 1 69, run 0x245 0x245 1 71,
  run 0x246 0x24e 2 1, run 0x250 0x250 1 10783, run 0x251 0x251 1 10780, run 0x252 0x252 1 10782,
  run 0x25c 0x25c 1 42319, run 0x261 0x261 1 42315, run 0x265 0x265 1 42280,
  run 0x266 0x266 1 42308, run 0x26a 0x26a 1 42308, run 0x26b 0x26b 1 10743,
  run 0x26c 0x26c 1 42305, run 0x271 0x271 1 10749, run 0x27d 0x27d 1 10727,
  run 0x282 0x282 1 42307, run 0x287 0x287 1 42282, run 0x29d 0x29d 1 42261,
  run 0x29e 0x29e 1 42258, run 0x370 0x372 2 1, run 0x376 0x376 1 1, run 0x37b 0x37d 1 130,
  run 0x37f 0x37f 1 116, run 0x386 0x386 1 38, run 0x388 0x38a 1 37, run 0x38c 0x38c 1 64,
  run 0x38e 0x38f 1 63, run 0x391 0x393 2 32, run 0x394 0x396 2 32, run 0x397 0x397 1 32,
  run 0x39b 0x39d 2 32, run 0x39e 0x39f 1 32, run 0x3a4 0x3a5 1 32, run 0x3a7 0x3a8 1 32,
  run 0x3aa 0x3ab 1 32, run 0x3cf 0x3cf 1 8, run 0x3d8 0x3ee 2 1, run 0x3f2 0x3f2 1 7,
  run 0x3f7 0x3f7 1 1, run 0x3fa 0x3fa 1 1, run 0x400 0x40f 1 80, run 0x410 0x411 1 32,
  run 0x413 0x415 2 32, run 0x416 0x41d 1 32, run 0x41f 0x420 1 32, run 0x423 0x429 1 32,
  run 0x42b 0x42f 1 32, run 0x460 0x460 1 1, run 0x464 0x480 2 1, run 0x48a 0x4be 2 1,
  run 0x4c0 0x4c0 1 15, run 0x4c1 0x4cd 2 1, run 0x4d0 0x52e 2 1, run 0x531 0x556 1 48,
  run 0x10a0 0x10c5 1 7264, run 0x10c7 0x10c7 1 7264, run 0x10cd 0x10cd 1 7264,
  run 0x10d0 0x10fa 1 3008, run 0x10fd 0x10ff 1 3008, run 0x13a0 0x13ef 1 38864,
  run 0x13f0 0x13f5 1 8, run 0x1d79 0x1d79 1 35332, run 0x1d7d 0x1d7d 1 3814,
  run 0x1d8e 0x1d8e 1 35384, run 0x1e00 0x1e5e 2 1, run 0x1e62 0x1e94 2 1, run 0x1ea0 0x1efe 2 1,
  run 0x1f00 0x1f07 1 8, run 0x1f10 0x1f15 1 8, run 0x1f20 0x1f27 1 8, run 0x1f30 0x1f37 1 8,
  run 0x1f40 0x1f45 1 8, run 0x1f51 0x1f57 2 8, run 0x1f60 0x1f67 1 8, run 0x1f70 0x1f71 1 74,
  run 0x1f72 0x1f75 1 86, run 0x1f76 0x1f77 1 100, run 0x1f78 0x1f79 1 128, run 0x1f7a 0x1f7b 1 112,
  run 0x1f7c 0x1f7d 1 126, run 0x1f80 0x1f87 1 8, run 0x1f90 0x1f97 1 8, run 0x1fa0 0x1fa7 1 8,
  run 0x1fb0 0x1fb1 1 8, run 0x1fb3 0x1fb3 1 9, run 0x1fc3 0x1fc3 1 9, run 0x1fd0 0x1fd1 1 8,
  run 0x1fe0 0x1fe1 1 8, run 0x1fe5 0x1fe5 1 7, run 0x1ff3 0x1ff3 1 9, run 0x2132 0x2132 1 28,
  run 0x2160 0x216f 1 16, run 0x2183 0x2183 1 1, run 0x24b6 0x24cf 1 26, run 0x2c00 0x2c2f 1 48,
  run 0x2c60 0x2c60 1 1, run 0x2c67 0x2c6b 2 1, run 0x2c72 0x2c72 1 1, run 0x2c75 0x2c75 1 1,
  run 0x2c80 0x2ce2 2 1, run 0x2ceb 0x2ced 2 1, run 0x2cf2 0x2cf2 1 1, run 0xa640 0xa648 2 1,
  run 0xa64c 0xa66c 2 1, run 0xa680 0xa69a 2 1, run 0xa722 0xa72e 2 1, run 0xa732 0xa76e 2 1,
  run 0xa779 0xa77b 2 1, run 0xa77e 0xa786 2 1, run 0xa78b 0xa78b 1 1, run 0xa790 0xa792 2 1,
  run 0xa794 0xa794 1 48, run 0xa796 0xa7a8 2 1, run 0xa7b3 0xa7b3 1 928, run 0xa7b4 0xa7c2 2 1,
  run 0xa7c7 0xa7c9 2 1, run 0xa7d0 0xa7d0 1 1, run 0xa7d6 0xa7d8 2 1, run 0xa7f5 0xa7f5 1 1,
  run 0xff21 0xff3a 1 32, run 0x10400 0x10427 1 40, run 0x104b0 0x104d3 1 40,
  run 0x10570 0x1057a 1 39, run 0x1057c 0x1058a 1 39, run 0x1058c 0x10592 1 39,
  run 0x10594 0x10595 1 39, run 0x10c80 0x10cb2 1 64, run 0x118a0 0x118bf 1 32,
  run 0x16e40 0x16e5f 1 32, run 0x1e900 0x1e921 1 34]

end CaseRun

/-- The groups of more than two variants. -/
def caseGroups : List (List Nat) := [
  [0x4b, 0x6b, 0x212a], [0x53, 0x73, 0x17f], [0xc5, 0xe5, 0x212b], [0x1c4, 0x1c5, 0x1c6],
  [0x1c7, 0x1c8, 0x1c9], [0x1ca, 0x1cb, 0x1cc], [0x1f1, 0x1f2, 0x1f3], [0x392, 0x3b2, 0x3d0],
  [0x395, 0x3b5, 0x3f5], [0x398, 0x3b8, 0x3d1, 0x3f4], [0x345, 0x399, 0x3b9, 0x1fbe],
  [0x39a, 0x3ba, 0x3f0], [0xb5, 0x39c, 0x3bc], [0x3a0, 0x3c0, 0x3d6], [0x3a1, 0x3c1, 0x3f1],
  [0x3a3, 0x3c2, 0x3c3], [0x3a6, 0x3c6, 0x3d5], [0x3a9, 0x3c9, 0x2126], [0x412, 0x432, 0x1c80],
  [0x414, 0x434, 0x1c81], [0x41e, 0x43e, 0x1c82], [0x421, 0x441, 0x1c83],
  [0x422, 0x442, 0x1c84, 0x1c85], [0x42a, 0x44a, 0x1c86], [0x462, 0x463, 0x1c87],
  [0x1e60, 0x1e61, 0x1e9b], [0x1c88, 0xa64a, 0xa64b]]

end Prospectus.Text
