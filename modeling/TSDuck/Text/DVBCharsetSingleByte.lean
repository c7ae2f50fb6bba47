import TSDuck.Text.UChar

/-!
# Single-byte character sets

The character sets of DVB strings which have one byte for each character.

`DVBCharsetSingleByte.decode_encode`: what a character set can encode is decoded, up to the carriage
returns, which are never encoded.

Scope. An undefined entry of a table is zero, as in the code. The names of the character sets, which
the strings do not carry, are left out.
-/

namespace TSDuck

def DVB_SINGLE_BYTE_CRLF : UInt8 := 0x8A

/-- A table code and the characters from 0xA0 to 0xFF. -/
structure DVBCharsetSingleByte where
  tableCode : ℕ
  upperCodePoints : List UChar
  length_upperCodePoints : upperCodePoints.length = 0x100 - 0xA0
deriving DecidableEq

namespace DVBCharsetSingleByte

def ISO_6937 : DVBCharsetSingleByte where
  tableCode := 0x00
  upperCodePoints := [0xA0, 0xA1, 0xA2, 0xA3, 0x20AC, 0xA5, 0, 0xA7, 0xA4, 0x2018, 0x201C, 0xAB,
    0x2190, 0x2191, 0x2192, 0x2193, 0xB0, 0xB1, 0xB2, 0xB3, 0xD7, 0xB5, 0xB6, 0xB7,
    0xF7, 0x2019, 0x201D, 0xBB, 0xBC, 0xBD, 0xBE, 0xBF, 0, 0x300, 0x301, 0x302,
    0x303, 0x304, 0x306, 0x307, 0x308, 0, 0x30A, 0x327, 0, 0x30B, 0x328, 0x30C,
    0x2015, 0xB9, 0xAE, 0xA9, 0x2122, 0x266A, 0xAC, 0xA6, 0, 0, 0, 0,
    0x215B, 0x215C, 0x215D, 0x215E, 0x2126, 0xC6, 0x110, 0xAA, 0x126, 0, 0x132, 0x13F,
    0x141, 0xD8, 0x152, 0xBA, 0xDE, 0x166, 0x14A, 0x149, 0x138, 0xE6, 0x111, 0xF0,
    0x127, 0x131, 0x133, 0x140, 0x142, 0xF8, 0x153, 0xDF, 0xFE, 0x167, 0x14B, 0xAD]
  length_upperCodePoints := rfl

def ISO_8859_1 : DVBCharsetSingleByte where
  tableCode := 0x100001
  upperCodePoints := [0xA0, 0xA1, 0xA2, 0xA3, 0xA4, 0xA5, 0xA6, 0xA7, 0xA8, 0xA9, 0xAA, 0xAB,
    0xAC, 0xAD, 0xAE, 0xAF, 0xB0, 0xB1, 0xB2, 0xB3, 0xB4, 0xB5, 0xB6, 0xB7,
    0xB8, 0xB9, 0xBA, 0xBB, 0xBC, 0xBD, 0xBE, 0xBF, 0xC0, 0xC1, 0xC2, 0xC3,
    0xC4, 0xC5, 0xC6, 0xC7, 0xC8, 0xC9, 0xCA, 0xCB, 0xCC, 0xCD, 0xCE, 0xCF,
    0xD0, 0xD1, 0xD2, 0xD3, 0xD4, 0xD5, 0xD6, 0xD7, 0xD8, 0xD9, 0xDA, 0xDB,
    0xDC, 0xDD, 0xDE, 0xDF, 0xE0, 0xE1, 0xE2, 0xE3, 0xE4, 0xE5, 0xE6, 0xE7,
    0xE8, 0xE9, 0xEA, 0xEB, 0xEC, 0xED, 0xEE, 0xEF, 0xF0, 0xF1, 0xF2, 0xF3,
    0xF4, 0xF5, 0xF6, 0xF7, 0xF8, 0xF9, 0xFA, 0xFB, 0xFC, 0xFD, 0xFE, 0xFF]
  length_upperCodePoints := rfl

def ISO_8859_2 : DVBCharsetSingleByte where
  tableCode := 0x100002
  upperCodePoints := [
    0xA0, 0x104, 0x2D8, 0x141, 0xA4, 0x13D, 0x15A, 0xA7, 0xA8, 0x160, 0x15E, 0x164,
    0x179, 0xAD, 0x17D, 0x17B, 0xB0, 0x105, 0x2DB, 0x142, 0xB4, 0x13E, 0x15B, 0x2C7,
    0xB8, 0x161, 0x15F, 0x165, 0x17A, 0x2DD, 0x17E, 0x17C, 0x154, 0xC1, 0xC2, 0x102,
    0xC4, 0x139, 0x106, 0xC7, 0x10C, 0xC9, 0x118, 0xCB, 0x11A, 0xCD, 0xCE, 0x10E,
    0x110, 0x143, 0x147, 0xD3, 0xD4, 0x150, 0xD6, 0xD7, 0x158, 0x16E, 0xDA, 0x170,
    0xDC, 0xDD, 0x162, 0xDF, 0x155, 0xE1, 0xE2, 0x103, 0xE4, 0x13A, 0x107, 0xE7,
    0x10D, 0xE9, 0x119, 0xEB, 0x11B, 0xED, 0xEE, 0x10F, 0x111, 0x144, 0x148, 0xF3,
    0xF4, 0x151, 0xF6, 0xF7, 0x159, 0x16F, 0xFA, 0x171, 0xFC, 0xFD, 0x163, 0x2D9]
  length_upperCodePoints := rfl

def ISO_8859_3 : DVBCharsetSingleByte where
  tableCode := 0x100003
  upperCodePoints := [0xA0, 0x126, 0x2D8, 0xA3, 0xA4, 0, 0x124, 0xA7, 0xA8, 0x130, 0x15E, 0x11E,
    0x134, 0xAD, 0, 0x17B, 0xB0, 0x127, 0xB2, 0xB3, 0xB4, 0xB5, 0x125, 0xB7,
    0xB8, 0x131, 0x15F, 0x11F, 0x135, 0xBD, 0, 0x17C, 0xC0, 0xC1, 0xC2, 0,
    0xC4, 0x10A, 0x108, 0xC7, 0xC8, 0xC9, 0xCA, 0xCB, 0xCC, 0xCD, 0xCE, 0xCF,
    0, 0xD1, 0xD2, 0xD3, 0xD4, 0x120, 0xD6, 0xD7, 0x11C, 0xD9, 0xDA, 0xDB,
    0xDC, 0x16C, 0x15C, 0xDF, 0xE0, 0xE1, 0xE2, 0, 0xE4, 0x10B, 0x109, 0xE7,
    0xE8, 0xE9, 0xEA, 0xEB, 0xEC, 0xED, 0xEE, 0xEF, 0, 0xF1, 0xF2, 0xF3,
    0xF4, 0x121, 0xF6, 0xF7, 0x11D, 0xF9, 0xFA, 0xFB, 0xFC, 0x16D, 0x15D, 0x2D9]
  length_upperCodePoints := rfl

def ISO_8859_4 : DVBCharsetSingleByte where
  tableCode := 0x100004
  upperCodePoints := [
    0xA0, 0x104, 0x138, 0x156, 0xA4, 0x128, 0x13B, 0xA7, 0xA8, 0x160, 0x112, 0x122,
    0x166, 0xAD, 0x17D, 0xAF, 0xB0, 0x105, 0x2DB, 0x157, 0xB4, 0x129, 0x13C, 0x2C7,
    0xB8, 0x161, 0x113, 0x123, 0x167, 0x14A, 0x17E, 0x14B, 0x100, 0xC1, 0xC2, 0xC3,
    0xC4, 0xC5, 0xC6, 0x12E, 0x10C, 0xC9, 0x118, 0xCB, 0x116, 0xCD, 0xCE, 0x12A,
    0x110, 0x145, 0x14C, 0x136, 0xD4, 0xD5, 0xD6, 0xD7, 0xD8, 0x172, 0xDA, 0xDB,
    0xDC, 0x168, 0x16A, 0xDF, 0x101, 0xE1, 0xE2, 0xE3, 0xE4, 0xE5, 0xE6, 0x12F,
    0x10D, 0xE9, 0x119, 0xEB, 0x117, 0xED, 0xEE, 0x12B, 0x111, 0x146, 0x14D, 0x137,
    0xF4, 0xF5, 0xF6, 0xF7, 0xF8, 0x173, 0xFA, 0xFB, 0xFC, 0x169, 0x16B, 0x2D9]
  length_upperCodePoints := rfl

def ISO_8859_5 : DVBCharsetSingleByte where
  tableCode := 0x01
  upperCodePoints := [
    0xA0, 0x401, 0x402, 0x403, 0x404, 0x405, 0x406, 0x407, 0x408, 0x409, 0x40A, 0x40B,
    0x40C, 0xAD, 0x40E, 0x40F, 0x410, 0x411, 0x412, 0x413, 0x414, 0x415, 0x416, 0x417,
    0x418, 0x419, 0x41A, 0x41B, 0x41C, 0x41D, 0x41E, 0x41F, 0x420, 0x421, 0x422, 0x423,
    0x424, 0x425, 0x426, 0x427, 0x428, 0x429, 0x42A, 0x42B, 0x42C, 0x42D, 0x42E, 0x42F,
    0x430, 0x431, 0x432, 0x433, 0x434, 0x435, 0x436, 0x437, 0x438, 0x439, 0x43A, 0x43B,
    0x43C, 0x43D, 0x43E, 0x43F, 0x440, 0x441, 0x442, 0x443, 0x444, 0x445, 0x446, 0x447,
    0x448, 0x449, 0x44A, 0x44B, 0x44C, 0x44D, 0x44E, 0x44F, 0x2116, 0x451, 0x452, 0x453,
    0x454, 0x455, 0x456, 0x457, 0x458, 0x459, 0x45A, 0x45B, 0x45C, 0xA7, 0x45E, 0x45F]
  length_upperCodePoints := rfl

def ISO_8859_6 : DVBCharsetSingleByte where
  tableCode := 0x02
  upperCodePoints := [0xA0, 0, 0, 0, 0xA4, 0, 0, 0, 0, 0, 0, 0,
    0x60C, 0xAD, 0, 0, 0, 0, 0, 0, 0, 0, 0, 0,
    0, 0, 0, 0x61B, 0, 0, 0, 0x61F, 0, 0x621, 0x622, 0x623,
    0x624, 0x625, 0x626, 0x627, 0x628, 0x629, 0x62A, 0x62B, 0x62C, 0x62D, 0x62E, 0x62F,
    0x630, 0x631, 0x632, 0x633, 0x634, 0x635, 0x636, 0x637, 0x638, 0x639, 0x63A, 0,
    0, 0, 0, 0, 0x640, 0x641, 0x642, 0x643, 0x644, 0x645, 0x646, 0x647,
    0x648, 0x649, 0x64A, 0x64B, 0x64C, 0x64D, 0x64E, 0x64F, 0x650, 0x651, 0x652, 0,
    0, 0, 0, 0, 0, 0, 0, 0, 0, 0, 0, 0]
  length_upperCodePoints := rfl

def ISO_8859_7 : DVBCharsetSingleByte where
  tableCode := 0x03
  upperCodePoints := [
    0xA0, 0x2018, 0x2019, 0xA3, 0x20AC, 0x20AF, 0xA6, 0xA7, 0xA8, 0xA9, 0x37A, 0xAB,
    0xAC, 0xAD, 0, 0x2015, 0xB0, 0xB1, 0xB2, 0xB3, 0x384, 0x385, 0x386, 0xB7,
    0x388, 0x389, 0x38A, 0xBB, 0x38C, 0xBD, 0x38E, 0x38F, 0x390, 0x391, 0x392, 0x393,
    0x394, 0x395, 0x396, 0x397, 0x398, 0x399, 0x39A, 0x39B, 0x39C, 0x39D, 0x39E, 0x39F,
    0x3A0, 0x3A1, 0, 0x3A3, 0x3A4, 0x3A5, 0x3A6, 0x3A7, 0x3A8, 0x3A9, 0x3AA, 0x3AB,
    0x3AC, 0x3AD, 0x3AE, 0x3AF, 0x3B0, 0x3B1, 0x3B2, 0x3B3, 0x3B4, 0x3B5, 0x3B6, 0x3B7,
    0x3B8, 0x3B9, 0x3BA, 0x3BB, 0x3BC, 0x3BD, 0x3BE, 0x3BF, 0x3C0, 0x3C1, 0x3C2, 0x3C3,
    0x3C4, 0x3C5, 0x3C6, 0x3C7, 0x3C8, 0x3C9, 0x3CA, 0x3CB, 0x3CC, 0x3CD, 0x3CE, 0]
  length_upperCodePoints := rfl

def ISO_8859_8 : DVBCharsetSingleByte where
  tableCode := 0x04
  upperCodePoints := [0xA0, 0, 0xA2, 0xA3, 0xA4, 0xA5, 0xA6, 0xA7, 0xA8, 0xA9, 0xD7, 0xAB,
    0xAC, 0xAD, 0xAE, 0xAF, 0xB0, 0xB1, 0xB2, 0xB3, 0xB4, 0xB5, 0xB6, 0xB7,
    0xB8, 0xB9, 0xF7, 0xBB, 0xBC, 0xBD, 0xBE, 0, 0, 0, 0, 0,
    0, 0, 0, 0, 0, 0, 0, 0, 0, 0, 0, 0,
    0, 0, 0, 0, 0, 0, 0, 0, 0, 0, 0, 0,
    0, 0, 0, 0x2017, 0x5D0, 0x5D1, 0x5D2, 0x5D3, 0x5D4, 0x5D5, 0x5D6, 0x5D7,
    0x5D8, 0x5D9, 0x5DA, 0x5DB, 0x5DC, 0x5DD, 0x5DE, 0x5DF, 0x5E0, 0x5E1, 0x5E2, 0x5E3,
    0x5E4, 0x5E5, 0x5E6, 0x5E7, 0x5E8, 0x5E9, 0x5EA, 0, 0, 0x200E, 0x200F, 0]
  length_upperCodePoints := rfl

def ISO_8859_9 : DVBCharsetSingleByte where
  tableCode := 0x05
  upperCodePoints := [0xA0, 0xA1, 0xA2, 0xA3, 0xA4, 0xA5, 0xA6, 0xA7, 0xA8, 0xA9, 0xAA, 0xAB,
    0xAC, 0xAD, 0xAE, 0xAF, 0xB0, 0xB1, 0xB2, 0xB3, 0xB4, 0xB5, 0xB6, 0xB7,
    0xB8, 0xB9, 0xBA, 0xBB, 0xBC, 0xBD, 0xBE, 0xBF, 0xC0, 0xC1, 0xC2, 0xC3,
    0xC4, 0xC5, 0xC6, 0xC7, 0xC8, 0xC9, 0xCA, 0xCB, 0xCC, 0xCD, 0xCE, 0xCF,
    0x11E, 0xD1, 0xD2, 0xD3, 0xD4, 0xD5, 0xD6, 0xD7, 0xD8, 0xD9, 0xDA, 0xDB,
    0xDC, 0x130, 0x15E, 0xDF, 0xE0, 0xE1, 0xE2, 0xE3, 0xE4, 0xE5, 0xE6, 0xE7,
    0xE8, 0xE9, 0xEA, 0xEB, 0xEC, 0xED, 0xEE, 0xEF, 0x11F, 0xF1, 0xF2, 0xF3,
    0xF4, 0xF5, 0xF6, 0xF7, 0xF8, 0xF9, 0xFA, 0xFB, 0xFC, 0x131, 0x15F, 0xFF]
  length_upperCodePoints := rfl

def ISO_8859_10 : DVBCharsetSingleByte where
  tableCode := 0x06
  upperCodePoints := [
    0xA0, 0x104, 0x112, 0x122, 0x12A, 0x128, 0x136, 0xA7, 0x13B, 0x110, 0x160, 0x166,
    0x17D, 0xAD, 0x16A, 0x14A, 0xB0, 0x105, 0x113, 0x123, 0x12B, 0x129, 0x137, 0xB7,
    0x13C, 0x111, 0x161, 0x167, 0x17E, 0x2015, 0x16B, 0x14B, 0x100, 0xC1, 0xC2, 0xC3,
    0xC4, 0xC5, 0xC6, 0x12E, 0x10C, 0xC9, 0x118, 0xCB, 0x116, 0xCD, 0xCE, 0xCF,
    0xD0, 0x145, 0x14C, 0xD3, 0xD4, 0xD5, 0xD6, 0x168, 0xD8, 0x172, 0xDA, 0xDB,
    0xDC, 0xDD, 0xDE, 0xDF, 0x101, 0xE1, 0xE2, 0xE3, 0xE4, 0xE5, 0xE6, 0x12F,
    0x10D, 0xE9, 0x119, 0xEB, 0x117, 0xED, 0xEE, 0xEF, 0xF0, 0x146, 0x14D, 0xF3,
    0xF4, 0xF5, 0xF6, 0x169, 0xF8, 0x173, 0xFA, 0xFB, 0xFC, 0xFD, 0xFE, 0x138]
  length_upperCodePoints := rfl

def ISO_8859_11 : DVBCharsetSingleByte where
  tableCode := 0x07
  upperCodePoints := [
    0xA0, 0xE01, 0xE02, 0xE03, 0xE04, 0xE05, 0xE06, 0xE07, 0xE08, 0xE09, 0xE0A, 0xE0B,
    0xE0C, 0xE0D, 0xE0E, 0xE0F, 0xE10, 0xE11, 0xE12, 0xE13, 0xE14, 0xE15, 0xE16, 0xE17,
    0xE18, 0xE19, 0xE1A, 0xE1B, 0xE1C, 0xE1D, 0xE1E, 0xE1F, 0xE20, 0xE21, 0xE22, 0xE23,
    0xE24, 0xE25, 0xE26, 0xE27, 0xE28, 0xE29, 0xE2A, 0xE2B, 0xE2C, 0xE2D, 0xE2E, 0xE2F,
    0xE30, 0xE31, 0xE32, 0xE33, 0xE34, 0xE35, 0xE36, 0xE37, 0xE38, 0xE39, 0xE3A, 0,
    0, 0, 0, 0xE3F, 0xE40, 0xE41, 0xE42, 0xE43, 0xE44, 0xE45, 0xE46, 0xE47,
    0xE48, 0xE49, 0xE4A, 0xE4B, 0xE4C, 0xE4D, 0xE4E, 0xE4F, 0xE50, 0xE51, 0xE52, 0xE53,
    0xE54, 0xE55, 0xE56, 0xE57, 0xE58, 0xE59, 0xE5A, 0xE5B, 0, 0, 0, 0]
  length_upperCodePoints := rfl

def ISO_8859_13 : DVBCharsetSingleByte where
  tableCode := 0x09
  upperCodePoints := [0xA0, 0x201D, 0xA2, 0xA3, 0xA4, 0x201E, 0xA6, 0xA7, 0xD8, 0xA9, 0x156, 0xAB,
    0xAC, 0xAD, 0xAE, 0xC6, 0xB0, 0xB1, 0xB2, 0xB3, 0x201C, 0xB5, 0xB6, 0xB7,
    0xF8, 0xB9, 0x157, 0xBB, 0xBC, 0xBD, 0xBE, 0xE6, 0x104, 0x12E, 0x100, 0x106,
    0xC4, 0xC5, 0x118, 0x112, 0x10C, 0xC9, 0x179, 0x116, 0x122, 0x136, 0x12A, 0x13B,
    0x160, 0x143, 0x145, 0xD3, 0x14C, 0xD5, 0xD6, 0xD7, 0x172, 0x141, 0x15A, 0x16A,
    0xDC, 0x17B, 0x17D, 0xDF, 0x105, 0x12F, 0x101, 0x107, 0xE4, 0xE5, 0x119, 0x113,
    0x10D, 0xE9, 0x17A, 0x117, 0x123, 0x137, 0x12B, 0x13C, 0x161, 0x144, 0x146, 0xF3,
    0x14D, 0xF5, 0xF6, 0xF7, 0x173, 0x142, 0x15B, 0x16B, 0xFC, 0x17C, 0x17E, 0x2019]
  length_upperCodePoints := rfl

def ISO_8859_14 : DVBCharsetSingleByte where
  tableCode := 0x0A
  upperCodePoints := [
    0xA0, 0x1E02, 0x1E03, 0xA3, 0x10A, 0x10B, 0x1E0A, 0xA7, 0x1E80, 0xA9, 0x1E82, 0x1E0B,
    0x1EF2, 0xAD, 0xAE, 0x178, 0x1E1E, 0x1E1F, 0x120, 0x121, 0x1E40, 0x1E41, 0xB6, 0x1E56,
    0x1E81, 0x1E57, 0x1E83, 0x1E60, 0x1EF3, 0x1E84, 0x1E85, 0x1E61, 0xC0, 0xC1, 0xC2, 0xC3,
    0xC4, 0xC5, 0xC6, 0xC7, 0xC8, 0xC9, 0xCA, 0xCB, 0xCC, 0xCD, 0xCE, 0xCF,
    0x174, 0xD1, 0xD2, 0xD3, 0xD4, 0xD5, 0xD6, 0x1E6A, 0xD8, 0xD9, 0xDA, 0xDB,
    0xDC, 0xDD, 0x176, 0xDF, 0xE0, 0xE1, 0xE2, 0xE3, 0xE4, 0xE5, 0xE6, 0xE7,
    0xE8, 0xE9, 0xEA, 0xEB, 0xEC, 0xED, 0xEE, 0xEF, 0x175, 0xF1, 0xF2, 0xF3,
    0xF4, 0xF5, 0xF6, 0x1E6B, 0xF8, 0xF9, 0xFA, 0xFB, 0xFC, 0xFD, 0x177, 0xFF]
  length_upperCodePoints := rfl

def ISO_8859_15 : DVBCharsetSingleByte where
  tableCode := 0x0B
  upperCodePoints := [0xA0, 0xA1, 0xA2, 0xA3, 0x20AC, 0xA5, 0x160, 0xA7, 0x161, 0xA9, 0xAA, 0xAB,
    0xAC, 0xAD, 0xAE, 0xAF, 0xB0, 0xB1, 0xB2, 0xB3, 0x17D, 0xB5, 0xB6, 0xB7,
    0x17E, 0xB9, 0xBA, 0xBB, 0x152, 0x153, 0x178, 0xBF, 0xC0, 0xC1, 0xC2, 0xC3,
    0xC4, 0xC5, 0xC6, 0xC7, 0xC8, 0xC9, 0xCA, 0xCB, 0xCC, 0xCD, 0xCE, 0xCF,
    0xD0, 0xD1, 0xD2, 0xD3, 0xD4, 0xD5, 0xD6, 0xD7, 0xD8, 0xD9, 0xDA, 0xDB,
    0xDC, 0xDD, 0xDE, 0xDF, 0xE0, 0xE1, 0xE2, 0xE3, 0xE4, 0xE5, 0xE6, 0xE7,
    0xE8, 0xE9, 0xEA, 0xEB, 0xEC, 0xED, 0xEE, 0xEF, 0xF0, 0xF1, 0xF2, 0xF3,
    0xF4, 0xF5, 0xF6, 0xF7, 0xF8, 0xF9, 0xFA, 0xFB, 0xFC, 0xFD, 0xFE, 0xFF]
  length_upperCodePoints := rfl

/-! ### Encoding and decoding -/

/-- The bytes of the characters, in the order in which they are inserted. -/
def bytesMap (charset : DVBCharsetSingleByte) : List (UChar × UInt8) :=
  (List.range' 0x20 (0x7F - 0x20)).map (fun code ↦ (UInt16.ofNat code, UInt8.ofNat code)) ++
    [(LINE_FEED, DVB_SINGLE_BYTE_CRLF)] ++
    (charset.upperCodePoints.zipIdx.filter (·.1 ≠ 0)).map
      (fun entry ↦ (entry.1, UInt8.ofNat (0xA0 + entry.2)))

def decodeByte (charset : DVBCharsetSingleByte) (byte : UInt8) : UChar :=
  if 0x20 ≤ byte.toNat ∧ byte.toNat ≤ 0x7E then UInt16.ofNat byte.toNat
  else if 0xA0 ≤ byte.toNat then charset.upperCodePoints.getD (byte.toNat - 0xA0) 0
  else if byte = DVB_SINGLE_BYTE_CRLF then LINE_FEED
  else 0

def decode (charset : DVBCharsetSingleByte) (dvb : ByteBlock) : U16String :=
  (dvb.map charset.decodeByte).filter (· ≠ 0)

def canEncode (charset : DVBCharsetSingleByte) (text : U16String) : Bool :=
  text.all fun unit ↦ (charset.bytesMap.lookup unit).isSome || unit = CARRIAGE_RETURN

def encodeUnit (charset : DVBCharsetSingleByte) (unit : UChar) : Option UInt8 :=
  if unit = CARRIAGE_RETURN then none else charset.bytesMap.lookup unit

/-- Encodes while there is space: the bytes and a count. -/
def encode (charset : DVBCharsetSingleByte) : ℕ → U16String → ByteBlock × ℕ
  | _, [] => ([], 0)
  | size, unit :: rest =>
    if size = 0 then ([], 0)
    else
      match charset.encodeUnit unit with
      | some byte =>
        let result := charset.encode (size - 1) rest
        (byte :: result.1, result.2 + 1)
      | none => charset.encode size rest

variable {charset : DVBCharsetSingleByte} {unit : UChar}

theorem decodeByte_of_mem_bytesMap {byte : UInt8} (hmem : (unit, byte) ∈ charset.bytesMap) :
    charset.decodeByte byte = unit ∧ unit ≠ 0 ∧ 0x20 ≤ byte.toNat := by
  rw [bytesMap, List.mem_append, List.mem_append, List.mem_map, List.mem_singleton,
    List.mem_map] at hmem
  rcases hmem with (⟨code, hcode, hpair⟩ | hpair) | ⟨⟨unit', index⟩, hentry, hpair⟩
  · obtain ⟨rfl, rfl⟩ := Prod.mk.inj hpair
    obtain ⟨hlow, hhigh⟩ := List.mem_range'_1.mp hcode
    have hbyte : (UInt8.ofNat code).toNat = code := by
      rw [UInt8.toNat_ofNat']
      omega
    unfold decodeByte
    rw [hbyte, if_pos (by omega)]
    refine ⟨rfl, ?_, hlow⟩
    intro hzero
    have hvalue := congrArg UInt16.toNat hzero
    rw [UInt16.toNat_ofNat', UInt16.toNat_zero] at hvalue
    omega
  · obtain ⟨rfl, rfl⟩ := Prod.mk.inj hpair
    exact ⟨rfl, by decide, by decide⟩
  · obtain ⟨rfl, rfl⟩ := Prod.mk.inj hpair
    obtain ⟨hindexed, hnonzero⟩ := List.mem_filter.mp hentry
    have hget := List.mk_mem_zipIdx_iff_getElem?.mp hindexed
    have hindex : index < 0x100 - 0xA0 := by
      rw [← charset.length_upperCodePoints]
      exact (List.getElem?_eq_some_iff.mp hget).1
    have hbyte : (UInt8.ofNat (0xA0 + index)).toNat = 0xA0 + index := by
      rw [UInt8.toNat_ofNat']
      omega
    unfold decodeByte
    rw [hbyte, if_neg (by omega), if_pos (by omega), Nat.add_sub_cancel_left,
      List.getD_eq_getElem?_getD, hget]
    exact ⟨rfl, of_decide_eq_true hnonzero, by omega⟩

theorem decodeByte_of_encodeUnit {byte : UInt8} (hencode : charset.encodeUnit unit = some byte) :
    charset.decodeByte byte = unit ∧ unit ≠ 0 ∧ 0x20 ≤ byte.toNat := by
  unfold encodeUnit at hencode
  by_cases hreturn : unit = CARRIAGE_RETURN
  · rw [if_pos hreturn] at hencode
    cases hencode
  · rw [if_neg hreturn, List.lookup_eq_some_iff] at hencode
    obtain ⟨before, after, hmap, -⟩ := hencode
    apply decodeByte_of_mem_bytesMap
    rw [hmap]
    exact List.mem_append_right before List.mem_cons_self

theorem encode_eq (charset : DVBCharsetSingleByte) (size : ℕ) (text : U16String) :
    charset.encode size text = ((text.filterMap charset.encodeUnit).take size,
        min size (text.filterMap charset.encodeUnit).length) := by
  induction text generalizing size with
  | nil => simp [encode]
  | cons unit text ih =>
    rw [encode]
    by_cases hsize : size = 0
    · rw [if_pos hsize, hsize, List.take_zero, Nat.zero_min]
    rw [if_neg hsize]
    cases hunit : charset.encodeUnit unit with
    | none =>
      rw [List.filterMap_cons_none hunit]
      exact ih size
    | some byte =>
      obtain ⟨room, rfl⟩ := Nat.exists_eq_succ_of_ne_zero hsize
      rw [List.filterMap_cons_some hunit]
      dsimp only
      rw [Nat.succ_sub_one, ih room, List.take_succ_cons, List.length_cons, Nat.succ_min_succ]

theorem decode_filterMap (charset : DVBCharsetSingleByte) (text : U16String) :
    charset.decode (text.filterMap charset.encodeUnit) =
      text.filter fun unit ↦ (charset.encodeUnit unit).isSome := by
  have hdecoded : (text.filterMap charset.encodeUnit).map charset.decodeByte =
      text.filter fun unit ↦ (charset.encodeUnit unit).isSome := by
    rw [List.map_filterMap, ← List.filterMap_eq_filter]
    congr 1
    funext unit
    cases hunit : charset.encodeUnit unit with
    | none => simp [Option.guard, hunit]
    | some byte => simp [Option.guard, hunit, (decodeByte_of_encodeUnit hunit).1]
  rw [decode, hdecoded, List.filter_eq_self]
  intro unit hunit
  obtain ⟨byte, hbyte⟩ := Option.isSome_iff_exists.mp (List.mem_filter.mp hunit).2
  exact decide_eq_true (decodeByte_of_encodeUnit hbyte).2.1

theorem isSome_encodeUnit {text : U16String} (hcan : charset.canEncode text = true)
    (hunit : unit ∈ text) :
    (charset.encodeUnit unit).isSome = decide (unit ≠ CARRIAGE_RETURN) := by
  unfold canEncode at hcan
  have hone := List.all_eq_true.mp hcan unit hunit
  unfold encodeUnit
  by_cases hreturn : unit = CARRIAGE_RETURN
  · rw [if_pos hreturn, decide_eq_false (not_not.mpr hreturn)]
    rfl
  · rw [if_neg hreturn, decide_eq_true hreturn]
    rw [decide_eq_false hreturn, Bool.or_false] at hone
    exact hone

theorem decode_encode {text : U16String} (hcan : charset.canEncode text = true) :
    charset.decode (text.filterMap charset.encodeUnit) = text.filter (· ≠ CARRIAGE_RETURN) := by
  rw [decode_filterMap]
  exact List.filter_congr fun unit hunit ↦ isSome_encodeUnit hcan hunit

/-! ### Parts of a string -/

/-- Tests if a part can be encoded, on the whole string. -/
def canEncodePart (charset : DVBCharsetSingleByte) (text : U16String) (_start _count : ℕ) : Bool :=
  charset.canEncode text

def encodePart (charset : DVBCharsetSingleByte) (size : ℕ) (text : U16String) (start count : ℕ) :
    ByteBlock × ℕ :=
  charset.encode size ((text.drop start).take count)

/-- The character has a byte, or it is not encoded. -/
def HasByte (charset : DVBCharsetSingleByte) (unit : UChar) : Prop :=
  unit = CARRIAGE_RETURN ∨ ∃ byte, (unit, byte) ∈ charset.bytesMap

/-- A part is encoded, and decoded again. -/
def IsEncoded (charset : DVBCharsetSingleByte) (text : U16String) (start count : ℕ) : Prop :=
  ∀ size, ((text.drop start).take count).length ≤ size →
    charset.decode (charset.encodePart size text start count).1 =
      ((text.drop start).take count).filter (· ≠ CARRIAGE_RETURN)

theorem canEncode_iff (charset : DVBCharsetSingleByte) (text : U16String) :
    charset.canEncode text = true ↔ ∀ unit ∈ text, charset.HasByte unit := by
  rw [canEncode, List.all_eq_true]
  refine forall₂_congr fun unit _ ↦ ?_
  rw [Bool.or_eq_true, decide_eq_true_iff, HasByte, or_comm]
  refine or_congr_right ⟨fun hsome ↦ ?_, fun ⟨byte, hmem⟩ ↦ ?_⟩
  · obtain ⟨byte, hbyte⟩ := Option.isSome_iff_exists.mp hsome
    obtain ⟨before, after, hmap, -⟩ := List.lookup_eq_some_iff.mp hbyte
    exact ⟨byte, hmap ▸ List.mem_append_right before List.mem_cons_self⟩
  · by_contra hnone
    have hall := List.lookup_eq_none_iff.mp (Option.not_isSome_iff_eq_none.mp hnone) _ hmem
    exact Bool.false_ne_true ((bne_self_eq_false unit).symm.trans hall)

theorem isEncoded_iff (charset : DVBCharsetSingleByte) (text : U16String) (start count : ℕ) :
    charset.IsEncoded text start count ↔
      ∀ unit ∈ (text.drop start).take count, charset.HasByte unit := by
  rw [IsEncoded, ← canEncode_iff]
  simp only [encodePart]
  generalize (text.drop start).take count = part
  have hall : ∀ size, part.length ≤ size →
      (charset.encode size part).1 = part.filterMap charset.encodeUnit := by
    intro size hsize
    rw [encode_eq]
    exact List.take_of_length_le ((List.length_filterMap_le _ _).trans hsize)
  constructor
  · intro hencoded
    have hdecoded := hencoded part.length le_rfl
    rw [hall _ le_rfl, decode_filterMap] at hdecoded
    refine (charset.canEncode_iff part).mpr fun unit hunit ↦ ?_
    by_cases hreturn : unit = CARRIAGE_RETURN
    · exact Or.inl hreturn
    · have hmem : unit ∈ part.filter (· ≠ CARRIAGE_RETURN) :=
        List.mem_filter.mpr ⟨hunit, decide_eq_true hreturn⟩
      rw [← hdecoded] at hmem
      obtain ⟨byte, hbyte⟩ := Option.isSome_iff_exists.mp (List.mem_filter.mp hmem).2
      rw [encodeUnit, if_neg hreturn] at hbyte
      obtain ⟨before, after, hmap, -⟩ := List.lookup_eq_some_iff.mp hbyte
      exact Or.inr ⟨byte, hmap ▸ List.mem_append_right before List.mem_cons_self⟩
  · intro hcan size hsize
    rw [hall size hsize]
    exact decode_encode hcan

/-- The test is right if and only if the whole string has bytes, or the part has not. -/
theorem canEncodePart_iff (charset : DVBCharsetSingleByte) (text : U16String) (start count : ℕ) :
    (charset.canEncodePart text start count = true ↔ charset.IsEncoded text start count) ↔
      (∀ unit ∈ text, charset.HasByte unit) ∨
        ∃ unit ∈ (text.drop start).take count, ¬charset.HasByte unit := by
  rw [canEncodePart, canEncode_iff, isEncoded_iff]
  constructor
  · intro hiff
    by_cases hpart : ∀ unit ∈ (text.drop start).take count, charset.HasByte unit
    · exact Or.inl (hiff.mpr hpart)
    · push Not at hpart
      exact Or.inr hpart
  · rintro (hall | ⟨unit, hunit, hnone⟩)
    · exact iff_of_true hall fun unit hunit ↦ hall unit (List.mem_of_mem_drop (List.mem_of_mem_take hunit))
    · exact iff_of_false (fun hall ↦ hnone (hall unit (List.mem_of_mem_drop (List.mem_of_mem_take hunit))))
        fun hall ↦ hnone (hall unit hunit)

/-- The first letter of a string whose second one has no byte. -/
theorem not_canEncodePart_of_outside :
    ¬ ∀ (charset : DVBCharsetSingleByte) (text : U16String) (start count : ℕ),
      (charset.canEncodePart text start count = true ↔ charset.IsEncoded text start count) := by
  intro hall
  rcases (canEncodePart_iff ISO_8859_1 [0x41, 0x3042] 0 1).mp (hall _ _ _ _) with h | ⟨unit, hunit, h⟩
  · exact absurd ((canEncode_iff _ _).mpr h) (by decide +kernel)
  · refine h ((canEncode_iff ISO_8859_1 [0x41]).mp (by decide +kernel) unit hunit)

end DVBCharsetSingleByte

end TSDuck
