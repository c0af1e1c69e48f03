import Linklint.Js.CodePoints

/-!
# The confusables table

The rows of the UTS #39 table that read as ASCII letters and digits, as the
pinned data release lists them.
-/

namespace Linklint

/-- A confusable code point and the text it reads as. -/
abbrev ConfusableRow := Nat × Text

def CONFUSABLES_RAW : List ConfusableRow :=
  [(0xC6, text "AE"), (0xE6, text "ae"), (0x131, text "i"), (0x132, text "lJ"), (0x133, text "ij"),
    (0x152, text "OE"), (0x153, text "oe"), (0x17F, text "f"), (0x184, text "b"),
    (0x18D, text "g"), (0x196, text "l"), (0x1A6, text "R"), (0x1A7, text "2"), (0x1B7, text "3"),
    (0x1BC, text "5"), (0x1BD, text "s"), (0x1C0, text "l"), (0x1C1, text "ll"),
    (0x1C7, text "LJ"), (0x1C8, text "Lj"), (0x1C9, text "lj"), (0x1CA, text "NJ"),
    (0x1CB, text "Nj"), (0x1CC, text "nj"), (0x1F1, text "DZ"), (0x1F2, text "Dz"),
    (0x1F3, text "dz"), (0x21C, text "3"), (0x222, text "8"), (0x223, text "8"), (0x251, text "a"),
    (0x261, text "g"), (0x263, text "y"), (0x269, text "i"), (0x26A, text "i"), (0x26F, text "w"),
    (0x28B, text "u"), (0x28F, text "y"), (0x2A3, text "dz"), (0x2A6, text "ts"),
    (0x2AA, text "ls"), (0x2AB, text "lz"), (0x37A, text "i"), (0x37F, text "J"),
    (0x391, text "A"), (0x392, text "B"), (0x395, text "E"), (0x396, text "Z"), (0x397, text "H"),
    (0x399, text "l"), (0x39A, text "K"), (0x39C, text "M"), (0x39D, text "N"), (0x39F, text "O"),
    (0x3A1, text "P"), (0x3A4, text "T"), (0x3A5, text "Y"), (0x3A7, text "X"), (0x3B1, text "a"),
    (0x3B3, text "y"), (0x3B9, text "i"), (0x3BD, text "v"), (0x3BF, text "o"), (0x3C1, text "p"),
    (0x3C3, text "o"), (0x3C5, text "u"), (0x3D2, text "Y"), (0x3DC, text "F"), (0x3E8, text "2"),
    (0x3F1, text "p"), (0x3F2, text "c"), (0x3F3, text "j"), (0x3F9, text "C"), (0x3FA, text "M"),
    (0x405, text "S"), (0x406, text "l"), (0x408, text "J"), (0x410, text "A"), (0x412, text "B"),
    (0x415, text "E"), (0x417, text "3"), (0x41A, text "K"), (0x41C, text "M"), (0x41D, text "H"),
    (0x41E, text "O"), (0x420, text "P"), (0x421, text "C"), (0x422, text "T"), (0x423, text "Y"),
    (0x425, text "X"), (0x42B, text "bl"), (0x42C, text "b"), (0x42E, text "lO"),
    (0x430, text "a"), (0x431, text "6"), (0x433, text "r"), (0x435, text "e"), (0x43E, text "o"),
    (0x440, text "p"), (0x441, text "c"), (0x443, text "y"), (0x445, text "x"), (0x455, text "s"),
    (0x456, text "i"), (0x458, text "j"), (0x461, text "w"), (0x474, text "V"), (0x475, text "v"),
    (0x4AE, text "Y"), (0x4AF, text "y"), (0x4BB, text "h"), (0x4BD, text "e"), (0x4C0, text "l"),
    (0x4CF, text "i"), (0x4D4, text "AE"), (0x4D5, text "ae"), (0x4E0, text "3"),
    (0x501, text "d"), (0x50C, text "G"), (0x51B, text "q"), (0x51C, text "W"), (0x51D, text "w"),
    (0x54D, text "U"), (0x54F, text "S"), (0x555, text "O"), (0x561, text "w"), (0x563, text "q"),
    (0x566, text "q"), (0x570, text "h"), (0x578, text "n"), (0x57C, text "n"), (0x57D, text "u"),
    (0x581, text "g"), (0x584, text "f"), (0x585, text "o"), (0x5D5, text "l"), (0x5D8, text "v"),
    (0x5DF, text "l"), (0x5E1, text "o"), (0x5F0, text "ll"), (0x627, text "l"), (0x647, text "o"),
    (0x661, text "l"), (0x665, text "o"), (0x667, text "V"), (0x6BE, text "o"), (0x6C1, text "o"),
    (0x6D5, text "o"), (0x6F1, text "l"), (0x6F5, text "o"), (0x6F7, text "V"), (0x7C0, text "O"),
    (0x7CA, text "l"), (0x966, text "o"), (0x9E6, text "O"), (0x9EA, text "8"), (0x9ED, text "9"),
    (0xA66, text "o"), (0xA67, text "9"), (0xA6A, text "8"), (0xAE6, text "o"), (0xB03, text "8"),
    (0xB20, text "O"), (0xB66, text "O"), (0xB68, text "9"), (0xBE6, text "o"), (0xC02, text "o"),
    (0xC66, text "o"), (0xC82, text "o"), (0xCE6, text "o"), (0xD02, text "o"), (0xD20, text "o"),
    (0xD66, text "o"), (0xD6D, text "9"), (0xD82, text "o"), (0xE50, text "o"), (0xED0, text "o"),
    (0x101D, text "o"), (0x1040, text "o"), (0x10E7, text "y"), (0x10FF, text "o"),
    (0x1200, text "U"), (0x12D0, text "O"), (0x13A0, text "D"), (0x13A1, text "R"),
    (0x13A2, text "T"), (0x13A5, text "i"), (0x13A9, text "Y"), (0x13AA, text "A"),
    (0x13AB, text "J"), (0x13AC, text "E"), (0x13B3, text "W"), (0x13B7, text "M"),
    (0x13BB, text "H"), (0x13BD, text "Y"), (0x13C0, text "G"), (0x13C2, text "h"),
    (0x13C3, text "Z"), (0x13CE, text "4"), (0x13CF, text "b"), (0x13D2, text "R"),
    (0x13D4, text "W"), (0x13D5, text "S"), (0x13D9, text "V"), (0x13DA, text "S"),
    (0x13DE, text "L"), (0x13DF, text "C"), (0x13E2, text "P"), (0x13E6, text "K"),
    (0x13E7, text "d"), (0x13EE, text "6"), (0x13F3, text "G"), (0x13F4, text "B"),
    (0x142F, text "V"), (0x144C, text "U"), (0x146D, text "P"), (0x146F, text "d"),
    (0x1472, text "b"), (0x148D, text "J"), (0x14AA, text "L"), (0x14BF, text "2"),
    (0x1541, text "x"), (0x157C, text "H"), (0x157D, text "x"), (0x1587, text "R"),
    (0x15AF, text "b"), (0x15B4, text "F"), (0x15C5, text "A"), (0x15DE, text "D"),
    (0x15EA, text "D"), (0x15F0, text "M"), (0x15F7, text "B"), (0x16B7, text "X"),
    (0x16C1, text "l"), (0x16D5, text "K"), (0x16D6, text "M"), (0x1D04, text "c"),
    (0x1D0F, text "o"), (0x1D11, text "o"), (0x1D1C, text "u"), (0x1D20, text "v"),
    (0x1D21, text "w"), (0x1D22, text "z"), (0x1D26, text "r"), (0x1D6B, text "ue"),
    (0x1D83, text "g"), (0x1D8C, text "y"), (0x1E9D, text "f"), (0x1EFF, text "y"),
    (0x1FBE, text "i"), (0x2102, text "C"), (0x210A, text "g"), (0x210B, text "H"),
    (0x210C, text "H"), (0x210D, text "H"), (0x210E, text "h"), (0x2110, text "l"),
    (0x2111, text "l"), (0x2112, text "L"), (0x2113, text "l"), (0x2115, text "N"),
    (0x2119, text "P"), (0x211A, text "Q"), (0x211B, text "R"), (0x211C, text "R"),
    (0x211D, text "R"), (0x2124, text "Z"), (0x2128, text "Z"), (0x212A, text "K"),
    (0x212C, text "B"), (0x212D, text "C"), (0x212F, text "e"), (0x2130, text "E"),
    (0x2131, text "F"), (0x2133, text "M"), (0x2134, text "o"), (0x2139, text "i"),
    (0x213D, text "y"), (0x2145, text "D"), (0x2146, text "d"), (0x2147, text "e"),
    (0x2148, text "i"), (0x2149, text "j"), (0x2160, text "l"), (0x2161, text "ll"),
    (0x2162, text "lll"), (0x2163, text "lV"), (0x2164, text "V"), (0x2165, text "Vl"),
    (0x2166, text "Vll"), (0x2167, text "Vlll"), (0x2168, text "lX"), (0x2169, text "X"),
    (0x216A, text "Xl"), (0x216B, text "Xll"), (0x216C, text "L"), (0x216D, text "C"),
    (0x216E, text "D"), (0x216F, text "M"), (0x2170, text "i"), (0x2171, text "ii"),
    (0x2172, text "iii"), (0x2173, text "iv"), (0x2174, text "v"), (0x2175, text "vi"),
    (0x2176, text "vii"), (0x2177, text "viii"), (0x2178, text "ix"), (0x2179, text "x"),
    (0x217A, text "xi"), (0x217B, text "xii"), (0x217C, text "l"), (0x217D, text "c"),
    (0x217E, text "d"), (0x217F, text "rn"), (0x2C85, text "r"), (0x2C8E, text "H"),
    (0x2C92, text "l"), (0x2C94, text "K"), (0x2C98, text "M"), (0x2C9A, text "N"),
    (0x2C9E, text "O"), (0x2C9F, text "o"), (0x2CA2, text "P"), (0x2CA3, text "p"),
    (0x2CA4, text "C"), (0x2CA5, text "c"), (0x2CA6, text "T"), (0x2CA8, text "Y"),
    (0x2CAC, text "X"), (0x2CCA, text "9"), (0x2CCC, text "3"), (0x2CD0, text "L"),
    (0x2CD2, text "6"), (0x2D38, text "V"), (0x2D39, text "E"), (0x2D4F, text "l"),
    (0x2D54, text "O"), (0x2D55, text "Q"), (0x2D5D, text "X"), (0x3007, text "O"),
    (0xA4D0, text "B"), (0xA4D1, text "P"), (0xA4D2, text "d"), (0xA4D3, text "D"),
    (0xA4D4, text "T"), (0xA4D6, text "G"), (0xA4D7, text "K"), (0xA4D9, text "J"),
    (0xA4DA, text "C"), (0xA4DC, text "Z"), (0xA4DD, text "F"), (0xA4DF, text "M"),
    (0xA4E0, text "N"), (0xA4E1, text "L"), (0xA4E2, text "S"), (0xA4E3, text "R"),
    (0xA4E6, text "V"), (0xA4E7, text "H"), (0xA4EA, text "W"), (0xA4EB, text "X"),
    (0xA4EC, text "Y"), (0xA4EE, text "A"), (0xA4F0, text "E"), (0xA4F2, text "l"),
    (0xA4F3, text "O"), (0xA4F4, text "U"), (0xA644, text "2"), (0xA647, text "i"),
    (0xA698, text "OO"), (0xA699, text "oo"), (0xA6DF, text "V"), (0xA6EF, text "2"),
    (0xA728, text "T3"), (0xA731, text "s"), (0xA732, text "AA"), (0xA733, text "aa"),
    (0xA734, text "AO"), (0xA735, text "ao"), (0xA736, text "AU"), (0xA737, text "au"),
    (0xA738, text "AV"), (0xA739, text "av"), (0xA73A, text "AV"), (0xA73B, text "av"),
    (0xA73C, text "AY"), (0xA73D, text "ay"), (0xA74E, text "OO"), (0xA74F, text "oo"),
    (0xA75A, text "2"), (0xA76A, text "3"), (0xA76E, text "9"), (0xA777, text "tf"),
    (0xA798, text "F"), (0xA799, text "f"), (0xA79F, text "u"), (0xA7AB, text "3"),
    (0xA7B2, text "J"), (0xA7B3, text "X"), (0xA7B4, text "B"), (0xAB32, text "e"),
    (0xAB35, text "f"), (0xAB3D, text "o"), (0xAB47, text "r"), (0xAB48, text "r"),
    (0xAB4E, text "u"), (0xAB52, text "u"), (0xAB5A, text "y"), (0xAB63, text "uo"),
    (0xAB75, text "i"), (0xAB81, text "r"), (0xAB83, text "w"), (0xAB93, text "z"),
    (0xABA9, text "v"), (0xABAA, text "s"), (0xABAF, text "c"), (0xFB00, text "ff"),
    (0xFB01, text "fi"), (0xFB02, text "fl"), (0xFB03, text "ffi"), (0xFB04, text "ffl"),
    (0xFB06, text "st"), (0xFBA6, text "o"), (0xFBA7, text "o"), (0xFBA8, text "o"),
    (0xFBA9, text "o"), (0xFBAA, text "o"), (0xFBAB, text "o"), (0xFBAC, text "o"),
    (0xFBAD, text "o"), (0xFE8D, text "l"), (0xFE8E, text "l"), (0xFEE9, text "o"),
    (0xFEEA, text "o"), (0xFEEB, text "o"), (0xFEEC, text "o"), (0xFF21, text "A"),
    (0xFF22, text "B"), (0xFF23, text "C"), (0xFF25, text "E"), (0xFF28, text "H"),
    (0xFF29, text "l"), (0xFF2A, text "J"), (0xFF2B, text "K"), (0xFF2D, text "M"),
    (0xFF2E, text "N"), (0xFF2F, text "O"), (0xFF30, text "P"), (0xFF33, text "S"),
    (0xFF34, text "T"), (0xFF38, text "X"), (0xFF39, text "Y"), (0xFF3A, text "Z"),
    (0xFF41, text "a"), (0xFF43, text "c"), (0xFF45, text "e"), (0xFF47, text "g"),
    (0xFF48, text "h"), (0xFF49, text "i"), (0xFF4A, text "j"), (0xFF4C, text "l"),
    (0xFF4F, text "o"), (0xFF50, text "p"), (0xFF53, text "s"), (0xFF56, text "v"),
    (0xFF58, text "x"), (0xFF59, text "y"), (0x10282, text "B"), (0x10286, text "E"),
    (0x10287, text "F"), (0x1028A, text "l"), (0x10290, text "X"), (0x10292, text "O"),
    (0x10295, text "P"), (0x10296, text "S"), (0x10297, text "T"), (0x102A0, text "A"),
    (0x102A1, text "B"), (0x102A2, text "C"), (0x102A5, text "F"), (0x102AB, text "O"),
    (0x102B0, text "M"), (0x102B1, text "T"), (0x102B2, text "Y"), (0x102B4, text "X"),
    (0x102CF, text "H"), (0x102F5, text "Z"), (0x10301, text "B"), (0x10302, text "C"),
    (0x10309, text "l"), (0x10311, text "M"), (0x10315, text "T"), (0x10317, text "X"),
    (0x1031A, text "8"), (0x10320, text "l"), (0x10322, text "X"), (0x10404, text "O"),
    (0x10415, text "C"), (0x1041B, text "L"), (0x10420, text "S"), (0x1042C, text "o"),
    (0x1043D, text "c"), (0x10448, text "s"), (0x104B4, text "R"), (0x104C2, text "O"),
    (0x104CE, text "U"), (0x104D2, text "7"), (0x104EA, text "o"), (0x104F6, text "u"),
    (0x10513, text "N"), (0x10516, text "O"), (0x10518, text "K"), (0x1051C, text "C"),
    (0x1051D, text "V"), (0x10525, text "F"), (0x10526, text "L"), (0x10527, text "X"),
    (0x114D0, text "O"), (0x11700, text "rn"), (0x11706, text "v"), (0x1170A, text "w"),
    (0x1170E, text "w"), (0x1170F, text "w"), (0x118A0, text "V"), (0x118A2, text "F"),
    (0x118A3, text "L"), (0x118A4, text "Y"), (0x118A6, text "E"), (0x118A9, text "Z"),
    (0x118AC, text "9"), (0x118AE, text "E"), (0x118AF, text "4"), (0x118B2, text "L"),
    (0x118B5, text "O"), (0x118B8, text "U"), (0x118BB, text "5"), (0x118BC, text "T"),
    (0x118C0, text "v"), (0x118C1, text "s"), (0x118C2, text "F"), (0x118C3, text "i"),
    (0x118C4, text "z"), (0x118C6, text "7"), (0x118C8, text "o"), (0x118CA, text "3"),
    (0x118CC, text "9"), (0x118D5, text "6"), (0x118D6, text "9"), (0x118D7, text "o"),
    (0x118D8, text "u"), (0x118DC, text "y"), (0x118E0, text "O"), (0x118E3, text "rn"),
    (0x118E5, text "Z"), (0x118E6, text "W"), (0x118E9, text "C"), (0x118EC, text "X"),
    (0x118EF, text "W"), (0x118F2, text "C"), (0x16F08, text "V"), (0x16F0A, text "T"),
    (0x16F16, text "L"), (0x16F28, text "l"), (0x16F35, text "R"), (0x16F3A, text "S"),
    (0x16F3B, text "3"), (0x16F40, text "A"), (0x16F42, text "U"), (0x16F43, text "Y"),
    (0x1CCF0, text "O"), (0x1CCF1, text "l"), (0x1CCF2, text "2"), (0x1CCF3, text "3"),
    (0x1CCF4, text "4"), (0x1CCF5, text "5"), (0x1CCF6, text "6"), (0x1CCF7, text "7"),
    (0x1CCF8, text "8"), (0x1CCF9, text "9"), (0x1D400, text "A"), (0x1D401, text "B"),
    (0x1D402, text "C"), (0x1D403, text "D"), (0x1D404, text "E"), (0x1D405, text "F"),
    (0x1D406, text "G"), (0x1D407, text "H"), (0x1D408, text "l"), (0x1D409, text "J"),
    (0x1D40A, text "K"), (0x1D40B, text "L"), (0x1D40C, text "M"), (0x1D40D, text "N"),
    (0x1D40E, text "O"), (0x1D40F, text "P"), (0x1D410, text "Q"), (0x1D411, text "R"),
    (0x1D412, text "S"), (0x1D413, text "T"), (0x1D414, text "U"), (0x1D415, text "V"),
    (0x1D416, text "W"), (0x1D417, text "X"), (0x1D418, text "Y"), (0x1D419, text "Z"),
    (0x1D41A, text "a"), (0x1D41B, text "b"), (0x1D41C, text "c"), (0x1D41D, text "d"),
    (0x1D41E, text "e"), (0x1D41F, text "f"), (0x1D420, text "g"), (0x1D421, text "h"),
    (0x1D422, text "i"), (0x1D423, text "j"), (0x1D424, text "k"), (0x1D425, text "l"),
    (0x1D426, text "rn"), (0x1D427, text "n"), (0x1D428, text "o"), (0x1D429, text "p"),
    (0x1D42A, text "q"), (0x1D42B, text "r"), (0x1D42C, text "s"), (0x1D42D, text "t"),
    (0x1D42E, text "u"), (0x1D42F, text "v"), (0x1D430, text "w"), (0x1D431, text "x"),
    (0x1D432, text "y"), (0x1D433, text "z"), (0x1D434, text "A"), (0x1D435, text "B"),
    (0x1D436, text "C"), (0x1D437, text "D"), (0x1D438, text "E"), (0x1D439, text "F"),
    (0x1D43A, text "G"), (0x1D43B, text "H"), (0x1D43C, text "l"), (0x1D43D, text "J"),
    (0x1D43E, text "K"), (0x1D43F, text "L"), (0x1D440, text "M"), (0x1D441, text "N"),
    (0x1D442, text "O"), (0x1D443, text "P"), (0x1D444, text "Q"), (0x1D445, text "R"),
    (0x1D446, text "S"), (0x1D447, text "T"), (0x1D448, text "U"), (0x1D449, text "V"),
    (0x1D44A, text "W"), (0x1D44B, text "X"), (0x1D44C, text "Y"), (0x1D44D, text "Z"),
    (0x1D44E, text "a"), (0x1D44F, text "b"), (0x1D450, text "c"), (0x1D451, text "d"),
    (0x1D452, text "e"), (0x1D453, text "f"), (0x1D454, text "g"), (0x1D456, text "i"),
    (0x1D457, text "j"), (0x1D458, text "k"), (0x1D459, text "l"), (0x1D45A, text "rn"),
    (0x1D45B, text "n"), (0x1D45C, text "o"), (0x1D45D, text "p"), (0x1D45E, text "q"),
    (0x1D45F, text "r"), (0x1D460, text "s"), (0x1D461, text "t"), (0x1D462, text "u"),
    (0x1D463, text "v"), (0x1D464, text "w"), (0x1D465, text "x"), (0x1D466, text "y"),
    (0x1D467, text "z"), (0x1D468, text "A"), (0x1D469, text "B"), (0x1D46A, text "C"),
    (0x1D46B, text "D"), (0x1D46C, text "E"), (0x1D46D, text "F"), (0x1D46E, text "G"),
    (0x1D46F, text "H"), (0x1D470, text "l"), (0x1D471, text "J"), (0x1D472, text "K"),
    (0x1D473, text "L"), (0x1D474, text "M"), (0x1D475, text "N"), (0x1D476, text "O"),
    (0x1D477, text "P"), (0x1D478, text "Q"), (0x1D479, text "R"), (0x1D47A, text "S"),
    (0x1D47B, text "T"), (0x1D47C, text "U"), (0x1D47D, text "V"), (0x1D47E, text "W"),
    (0x1D47F, text "X"), (0x1D480, text "Y"), (0x1D481, text "Z"), (0x1D482, text "a"),
    (0x1D483, text "b"), (0x1D484, text "c"), (0x1D485, text "d"), (0x1D486, text "e"),
    (0x1D487, text "f"), (0x1D488, text "g"), (0x1D489, text "h"), (0x1D48A, text "i"),
    (0x1D48B, text "j"), (0x1D48C, text "k"), (0x1D48D, text "l"), (0x1D48E, text "rn"),
    (0x1D48F, text "n"), (0x1D490, text "o"), (0x1D491, text "p"), (0x1D492, text "q"),
    (0x1D493, text "r"), (0x1D494, text "s"), (0x1D495, text "t"), (0x1D496, text "u"),
    (0x1D497, text "v"), (0x1D498, text "w"), (0x1D499, text "x"), (0x1D49A, text "y"),
    (0x1D49B, text "z"), (0x1D49C, text "A"), (0x1D49E, text "C"), (0x1D49F, text "D"),
    (0x1D4A2, text "G"), (0x1D4A5, text "J"), (0x1D4A6, text "K"), (0x1D4A9, text "N"),
    (0x1D4AA, text "O"), (0x1D4AB, text "P"), (0x1D4AC, text "Q"), (0x1D4AE, text "S"),
    (0x1D4AF, text "T"), (0x1D4B0, text "U"), (0x1D4B1, text "V"), (0x1D4B2, text "W"),
    (0x1D4B3, text "X"), (0x1D4B4, text "Y"), (0x1D4B5, text "Z"), (0x1D4B6, text "a"),
    (0x1D4B7, text "b"), (0x1D4B8, text "c"), (0x1D4B9, text "d"), (0x1D4BB, text "f"),
    (0x1D4BD, text "h"), (0x1D4BE, text "i"), (0x1D4BF, text "j"), (0x1D4C0, text "k"),
    (0x1D4C1, text "l"), (0x1D4C2, text "rn"), (0x1D4C3, text "n"), (0x1D4C5, text "p"),
    (0x1D4C6, text "q"), (0x1D4C7, text "r"), (0x1D4C8, text "s"), (0x1D4C9, text "t"),
    (0x1D4CA, text "u"), (0x1D4CB, text "v"), (0x1D4CC, text "w"), (0x1D4CD, text "x"),
    (0x1D4CE, text "y"), (0x1D4CF, text "z"), (0x1D4D0, text "A"), (0x1D4D1, text "B"),
    (0x1D4D2, text "C"), (0x1D4D3, text "D"), (0x1D4D4, text "E"), (0x1D4D5, text "F"),
    (0x1D4D6, text "G"), (0x1D4D7, text "H"), (0x1D4D8, text "l"), (0x1D4D9, text "J"),
    (0x1D4DA, text "K"), (0x1D4DB, text "L"), (0x1D4DC, text "M"), (0x1D4DD, text "N"),
    (0x1D4DE, text "O"), (0x1D4DF, text "P"), (0x1D4E0, text "Q"), (0x1D4E1, text "R"),
    (0x1D4E2, text "S"), (0x1D4E3, text "T"), (0x1D4E4, text "U"), (0x1D4E5, text "V"),
    (0x1D4E6, text "W"), (0x1D4E7, text "X"), (0x1D4E8, text "Y"), (0x1D4E9, text "Z"),
    (0x1D4EA, text "a"), (0x1D4EB, text "b"), (0x1D4EC, text "c"), (0x1D4ED, text "d"),
    (0x1D4EE, text "e"), (0x1D4EF, text "f"), (0x1D4F0, text "g"), (0x1D4F1, text "h"),
    (0x1D4F2, text "i"), (0x1D4F3, text "j"), (0x1D4F4, text "k"), (0x1D4F5, text "l"),
    (0x1D4F6, text "rn"), (0x1D4F7, text "n"), (0x1D4F8, text "o"), (0x1D4F9, text "p"),
    (0x1D4FA, text "q"), (0x1D4FB, text "r"), (0x1D4FC, text "s"), (0x1D4FD, text "t"),
    (0x1D4FE, text "u"), (0x1D4FF, text "v"), (0x1D500, text "w"), (0x1D501, text "x"),
    (0x1D502, text "y"), (0x1D503, text "z"), (0x1D504, text "A"), (0x1D505, text "B"),
    (0x1D507, text "D"), (0x1D508, text "E"), (0x1D509, text "F"), (0x1D50A, text "G"),
    (0x1D50D, text "J"), (0x1D50E, text "K"), (0x1D50F, text "L"), (0x1D510, text "M"),
    (0x1D511, text "N"), (0x1D512, text "O"), (0x1D513, text "P"), (0x1D514, text "Q"),
    (0x1D516, text "S"), (0x1D517, text "T"), (0x1D518, text "U"), (0x1D519, text "V"),
    (0x1D51A, text "W"), (0x1D51B, text "X"), (0x1D51C, text "Y"), (0x1D51E, text "a"),
    (0x1D51F, text "b"), (0x1D520, text "c"), (0x1D521, text "d"), (0x1D522, text "e"),
    (0x1D523, text "f"), (0x1D524, text "g"), (0x1D525, text "h"), (0x1D526, text "i"),
    (0x1D527, text "j"), (0x1D528, text "k"), (0x1D529, text "l"), (0x1D52A, text "rn"),
    (0x1D52B, text "n"), (0x1D52C, text "o"), (0x1D52D, text "p"), (0x1D52E, text "q"),
    (0x1D52F, text "r"), (0x1D530, text "s"), (0x1D531, text "t"), (0x1D532, text "u"),
    (0x1D533, text "v"), (0x1D534, text "w"), (0x1D535, text "x"), (0x1D536, text "y"),
    (0x1D537, text "z"), (0x1D538, text "A"), (0x1D539, text "B"), (0x1D53B, text "D"),
    (0x1D53C, text "E"), (0x1D53D, text "F"), (0x1D53E, text "G"), (0x1D540, text "l"),
    (0x1D541, text "J"), (0x1D542, text "K"), (0x1D543, text "L"), (0x1D544, text "M"),
    (0x1D546, text "O"), (0x1D54A, text "S"), (0x1D54B, text "T"), (0x1D54C, text "U"),
    (0x1D54D, text "V"), (0x1D54E, text "W"), (0x1D54F, text "X"), (0x1D550, text "Y"),
    (0x1D552, text "a"), (0x1D553, text "b"), (0x1D554, text "c"), (0x1D555, text "d"),
    (0x1D556, text "e"), (0x1D557, text "f"), (0x1D558, text "g"), (0x1D559, text "h"),
    (0x1D55A, text "i"), (0x1D55B, text "j"), (0x1D55C, text "k"), (0x1D55D, text "l"),
    (0x1D55E, text "rn"), (0x1D55F, text "n"), (0x1D560, text "o"), (0x1D561, text "p"),
    (0x1D562, text "q"), (0x1D563, text "r"), (0x1D564, text "s"), (0x1D565, text "t"),
    (0x1D566, text "u"), (0x1D567, text "v"), (0x1D568, text "w"), (0x1D569, text "x"),
    (0x1D56A, text "y"), (0x1D56B, text "z"), (0x1D56C, text "A"), (0x1D56D, text "B"),
    (0x1D56E, text "C"), (0x1D56F, text "D"), (0x1D570, text "E"), (0x1D571, text "F"),
    (0x1D572, text "G"), (0x1D573, text "H"), (0x1D574, text "l"), (0x1D575, text "J"),
    (0x1D576, text "K"), (0x1D577, text "L"), (0x1D578, text "M"), (0x1D579, text "N"),
    (0x1D57A, text "O"), (0x1D57B, text "P"), (0x1D57C, text "Q"), (0x1D57D, text "R"),
    (0x1D57E, text "S"), (0x1D57F, text "T"), (0x1D580, text "U"), (0x1D581, text "V"),
    (0x1D582, text "W"), (0x1D583, text "X"), (0x1D584, text "Y"), (0x1D585, text "Z"),
    (0x1D586, text "a"), (0x1D587, text "b"), (0x1D588, text "c"), (0x1D589, text "d"),
    (0x1D58A, text "e"), (0x1D58B, text "f"), (0x1D58C, text "g"), (0x1D58D, text "h"),
    (0x1D58E, text "i"), (0x1D58F, text "j"), (0x1D590, text "k"), (0x1D591, text "l"),
    (0x1D592, text "rn"), (0x1D593, text "n"), (0x1D594, text "o"), (0x1D595, text "p"),
    (0x1D596, text "q"), (0x1D597, text "r"), (0x1D598, text "s"), (0x1D599, text "t"),
    (0x1D59A, text "u"), (0x1D59B, text "v"), (0x1D59C, text "w"), (0x1D59D, text "x"),
    (0x1D59E, text "y"), (0x1D59F, text "z"), (0x1D5A0, text "A"), (0x1D5A1, text "B"),
    (0x1D5A2, text "C"), (0x1D5A3, text "D"), (0x1D5A4, text "E"), (0x1D5A5, text "F"),
    (0x1D5A6, text "G"), (0x1D5A7, text "H"), (0x1D5A8, text "l"), (0x1D5A9, text "J"),
    (0x1D5AA, text "K"), (0x1D5AB, text "L"), (0x1D5AC, text "M"), (0x1D5AD, text "N"),
    (0x1D5AE, text "O"), (0x1D5AF, text "P"), (0x1D5B0, text "Q"), (0x1D5B1, text "R"),
    (0x1D5B2, text "S"), (0x1D5B3, text "T"), (0x1D5B4, text "U"), (0x1D5B5, text "V"),
    (0x1D5B6, text "W"), (0x1D5B7, text "X"), (0x1D5B8, text "Y"), (0x1D5B9, text "Z"),
    (0x1D5BA, text "a"), (0x1D5BB, text "b"), (0x1D5BC, text "c"), (0x1D5BD, text "d"),
    (0x1D5BE, text "e"), (0x1D5BF, text "f"), (0x1D5C0, text "g"), (0x1D5C1, text "h"),
    (0x1D5C2, text "i"), (0x1D5C3, text "j"), (0x1D5C4, text "k"), (0x1D5C5, text "l"),
    (0x1D5C6, text "rn"), (0x1D5C7, text "n"), (0x1D5C8, text "o"), (0x1D5C9, text "p"),
    (0x1D5CA, text "q"), (0x1D5CB, text "r"), (0x1D5CC, text "s"), (0x1D5CD, text "t"),
    (0x1D5CE, text "u"), (0x1D5CF, text "v"), (0x1D5D0, text "w"), (0x1D5D1, text "x"),
    (0x1D5D2, text "y"), (0x1D5D3, text "z"), (0x1D5D4, text "A"), (0x1D5D5, text "B"),
    (0x1D5D6, text "C"), (0x1D5D7, text "D"), (0x1D5D8, text "E"), (0x1D5D9, text "F"),
    (0x1D5DA, text "G"), (0x1D5DB, text "H"), (0x1D5DC, text "l"), (0x1D5DD, text "J"),
    (0x1D5DE, text "K"), (0x1D5DF, text "L"), (0x1D5E0, text "M"), (0x1D5E1, text "N"),
    (0x1D5E2, text "O"), (0x1D5E3, text "P"), (0x1D5E4, text "Q"), (0x1D5E5, text "R"),
    (0x1D5E6, text "S"), (0x1D5E7, text "T"), (0x1D5E8, text "U"), (0x1D5E9, text "V"),
    (0x1D5EA, text "W"), (0x1D5EB, text "X"), (0x1D5EC, text "Y"), (0x1D5ED, text "Z"),
    (0x1D5EE, text "a"), (0x1D5EF, text "b"), (0x1D5F0, text "c"), (0x1D5F1, text "d"),
    (0x1D5F2, text "e"), (0x1D5F3, text "f"), (0x1D5F4, text "g"), (0x1D5F5, text "h"),
    (0x1D5F6, text "i"), (0x1D5F7, text "j"), (0x1D5F8, text "k"), (0x1D5F9, text "l"),
    (0x1D5FA, text "rn"), (0x1D5FB, text "n"), (0x1D5FC, text "o"), (0x1D5FD, text "p"),
    (0x1D5FE, text "q"), (0x1D5FF, text "r"), (0x1D600, text "s"), (0x1D601, text "t"),
    (0x1D602, text "u"), (0x1D603, text "v"), (0x1D604, text "w"), (0x1D605, text "x"),
    (0x1D606, text "y"), (0x1D607, text "z"), (0x1D608, text "A"), (0x1D609, text "B"),
    (0x1D60A, text "C"), (0x1D60B, text "D"), (0x1D60C, text "E"), (0x1D60D, text "F"),
    (0x1D60E, text "G"), (0x1D60F, text "H"), (0x1D610, text "l"), (0x1D611, text "J"),
    (0x1D612, text "K"), (0x1D613, text "L"), (0x1D614, text "M"), (0x1D615, text "N"),
    (0x1D616, text "O"), (0x1D617, text "P"), (0x1D618, text "Q"), (0x1D619, text "R"),
    (0x1D61A, text "S"), (0x1D61B, text "T"), (0x1D61C, text "U"), (0x1D61D, text "V"),
    (0x1D61E, text "W"), (0x1D61F, text "X"), (0x1D620, text "Y"), (0x1D621, text "Z"),
    (0x1D622, text "a"), (0x1D623, text "b"), (0x1D624, text "c"), (0x1D625, text "d"),
    (0x1D626, text "e"), (0x1D627, text "f"), (0x1D628, text "g"), (0x1D629, text "h"),
    (0x1D62A, text "i"), (0x1D62B, text "j"), (0x1D62C, text "k"), (0x1D62D, text "l"),
    (0x1D62E, text "rn"), (0x1D62F, text "n"), (0x1D630, text "o"), (0x1D631, text "p"),
    (0x1D632, text "q"), (0x1D633, text "r"), (0x1D634, text "s"), (0x1D635, text "t"),
    (0x1D636, text "u"), (0x1D637, text "v"), (0x1D638, text "w"), (0x1D639, text "x"),
    (0x1D63A, text "y"), (0x1D63B, text "z"), (0x1D63C, text "A"), (0x1D63D, text "B"),
    (0x1D63E, text "C"), (0x1D63F, text "D"), (0x1D640, text "E"), (0x1D641, text "F"),
    (0x1D642, text "G"), (0x1D643, text "H"), (0x1D644, text "l"), (0x1D645, text "J"),
    (0x1D646, text "K"), (0x1D647, text "L"), (0x1D648, text "M"), (0x1D649, text "N"),
    (0x1D64A, text "O"), (0x1D64B, text "P"), (0x1D64C, text "Q"), (0x1D64D, text "R"),
    (0x1D64E, text "S"), (0x1D64F, text "T"), (0x1D650, text "U"), (0x1D651, text "V"),
    (0x1D652, text "W"), (0x1D653, text "X"), (0x1D654, text "Y"), (0x1D655, text "Z"),
    (0x1D656, text "a"), (0x1D657, text "b"), (0x1D658, text "c"), (0x1D659, text "d"),
    (0x1D65A, text "e"), (0x1D65B, text "f"), (0x1D65C, text "g"), (0x1D65D, text "h"),
    (0x1D65E, text "i"), (0x1D65F, text "j"), (0x1D660, text "k"), (0x1D661, text "l"),
    (0x1D662, text "rn"), (0x1D663, text "n"), (0x1D664, text "o"), (0x1D665, text "p"),
    (0x1D666, text "q"), (0x1D667, text "r"), (0x1D668, text "s"), (0x1D669, text "t"),
    (0x1D66A, text "u"), (0x1D66B, text "v"), (0x1D66C, text "w"), (0x1D66D, text "x"),
    (0x1D66E, text "y"), (0x1D66F, text "z"), (0x1D670, text "A"), (0x1D671, text "B"),
    (0x1D672, text "C"), (0x1D673, text "D"), (0x1D674, text "E"), (0x1D675, text "F"),
    (0x1D676, text "G"), (0x1D677, text "H"), (0x1D678, text "l"), (0x1D679, text "J"),
    (0x1D67A, text "K"), (0x1D67B, text "L"), (0x1D67C, text "M"), (0x1D67D, text "N"),
    (0x1D67E, text "O"), (0x1D67F, text "P"), (0x1D680, text "Q"), (0x1D681, text "R"),
    (0x1D682, text "S"), (0x1D683, text "T"), (0x1D684, text "U"), (0x1D685, text "V"),
    (0x1D686, text "W"), (0x1D687, text "X"), (0x1D688, text "Y"), (0x1D689, text "Z"),
    (0x1D68A, text "a"), (0x1D68B, text "b"), (0x1D68C, text "c"), (0x1D68D, text "d"),
    (0x1D68E, text "e"), (0x1D68F, text "f"), (0x1D690, text "g"), (0x1D691, text "h"),
    (0x1D692, text "i"), (0x1D693, text "j"), (0x1D694, text "k"), (0x1D695, text "l"),
    (0x1D696, text "rn"), (0x1D697, text "n"), (0x1D698, text "o"), (0x1D699, text "p"),
    (0x1D69A, text "q"), (0x1D69B, text "r"), (0x1D69C, text "s"), (0x1D69D, text "t"),
    (0x1D69E, text "u"), (0x1D69F, text "v"), (0x1D6A0, text "w"), (0x1D6A1, text "x"),
    (0x1D6A2, text "y"), (0x1D6A3, text "z"), (0x1D6A4, text "i"), (0x1D6A8, text "A"),
    (0x1D6A9, text "B"), (0x1D6AC, text "E"), (0x1D6AD, text "Z"), (0x1D6AE, text "H"),
    (0x1D6B0, text "l"), (0x1D6B1, text "K"), (0x1D6B3, text "M"), (0x1D6B4, text "N"),
    (0x1D6B6, text "O"), (0x1D6B8, text "P"), (0x1D6BB, text "T"), (0x1D6BC, text "Y"),
    (0x1D6BE, text "X"), (0x1D6C2, text "a"), (0x1D6C4, text "y"), (0x1D6CA, text "i"),
    (0x1D6CE, text "v"), (0x1D6D0, text "o"), (0x1D6D2, text "p"), (0x1D6D4, text "o"),
    (0x1D6D6, text "u"), (0x1D6E0, text "p"), (0x1D6E2, text "A"), (0x1D6E3, text "B"),
    (0x1D6E6, text "E"), (0x1D6E7, text "Z"), (0x1D6E8, text "H"), (0x1D6EA, text "l"),
    (0x1D6EB, text "K"), (0x1D6ED, text "M"), (0x1D6EE, text "N"), (0x1D6F0, text "O"),
    (0x1D6F2, text "P"), (0x1D6F5, text "T"), (0x1D6F6, text "Y"), (0x1D6F8, text "X"),
    (0x1D6FC, text "a"), (0x1D6FE, text "y"), (0x1D704, text "i"), (0x1D708, text "v"),
    (0x1D70A, text "o"), (0x1D70C, text "p"), (0x1D70E, text "o"), (0x1D710, text "u"),
    (0x1D71A, text "p"), (0x1D71C, text "A"), (0x1D71D, text "B"), (0x1D720, text "E"),
    (0x1D721, text "Z"), (0x1D722, text "H"), (0x1D724, text "l"), (0x1D725, text "K"),
    (0x1D727, text "M"), (0x1D728, text "N"), (0x1D72A, text "O"), (0x1D72C, text "P"),
    (0x1D72F, text "T"), (0x1D730, text "Y"), (0x1D732, text "X"), (0x1D736, text "a"),
    (0x1D738, text "y"), (0x1D73E, text "i"), (0x1D742, text "v"), (0x1D744, text "o"),
    (0x1D746, text "p"), (0x1D748, text "o"), (0x1D74A, text "u"), (0x1D754, text "p"),
    (0x1D756, text "A"), (0x1D757, text "B"), (0x1D75A, text "E"), (0x1D75B, text "Z"),
    (0x1D75C, text "H"), (0x1D75E, text "l"), (0x1D75F, text "K"), (0x1D761, text "M"),
    (0x1D762, text "N"), (0x1D764, text "O"), (0x1D766, text "P"), (0x1D769, text "T"),
    (0x1D76A, text "Y"), (0x1D76C, text "X"), (0x1D770, text "a"), (0x1D772, text "y"),
    (0x1D778, text "i"), (0x1D77C, text "v"), (0x1D77E, text "o"), (0x1D780, text "p"),
    (0x1D782, text "o"), (0x1D784, text "u"), (0x1D78E, text "p"), (0x1D790, text "A"),
    (0x1D791, text "B"), (0x1D794, text "E"), (0x1D795, text "Z"), (0x1D796, text "H"),
    (0x1D798, text "l"), (0x1D799, text "K"), (0x1D79B, text "M"), (0x1D79C, text "N"),
    (0x1D79E, text "O"), (0x1D7A0, text "P"), (0x1D7A3, text "T"), (0x1D7A4, text "Y"),
    (0x1D7A6, text "X"), (0x1D7AA, text "a"), (0x1D7AC, text "y"), (0x1D7B2, text "i"),
    (0x1D7B6, text "v"), (0x1D7B8, text "o"), (0x1D7BA, text "p"), (0x1D7BC, text "o"),
    (0x1D7BE, text "u"), (0x1D7C8, text "p"), (0x1D7CA, text "F"), (0x1D7CE, text "O"),
    (0x1D7CF, text "l"), (0x1D7D0, text "2"), (0x1D7D1, text "3"), (0x1D7D2, text "4"),
    (0x1D7D3, text "5"), (0x1D7D4, text "6"), (0x1D7D5, text "7"), (0x1D7D6, text "8"),
    (0x1D7D7, text "9"), (0x1D7D8, text "O"), (0x1D7D9, text "l"), (0x1D7DA, text "2"),
    (0x1D7DB, text "3"), (0x1D7DC, text "4"), (0x1D7DD, text "5"), (0x1D7DE, text "6"),
    (0x1D7DF, text "7"), (0x1D7E0, text "8"), (0x1D7E1, text "9"), (0x1D7E2, text "O"),
    (0x1D7E3, text "l"), (0x1D7E4, text "2"), (0x1D7E5, text "3"), (0x1D7E6, text "4"),
    (0x1D7E7, text "5"), (0x1D7E8, text "6"), (0x1D7E9, text "7"), (0x1D7EA, text "8"),
    (0x1D7EB, text "9"), (0x1D7EC, text "O"), (0x1D7ED, text "l"), (0x1D7EE, text "2"),
    (0x1D7EF, text "3"), (0x1D7F0, text "4"), (0x1D7F1, text "5"), (0x1D7F2, text "6"),
    (0x1D7F3, text "7"), (0x1D7F4, text "8"), (0x1D7F5, text "9"), (0x1D7F6, text "O"),
    (0x1D7F7, text "l"), (0x1D7F8, text "2"), (0x1D7F9, text "3"), (0x1D7FA, text "4"),
    (0x1D7FB, text "5"), (0x1D7FC, text "6"), (0x1D7FD, text "7"), (0x1D7FE, text "8"),
    (0x1D7FF, text "9"), (0x1E8C7, text "l"), (0x1E8CB, text "8"), (0x1EE00, text "l"),
    (0x1EE24, text "o"), (0x1EE64, text "o"), (0x1EE80, text "l"), (0x1EE84, text "o"),
    (0x1FBF0, text "O"), (0x1FBF1, text "l"), (0x1FBF2, text "2"), (0x1FBF3, text "3"),
    (0x1FBF4, text "4"), (0x1FBF5, text "5"), (0x1FBF6, text "6"), (0x1FBF7, text "7"),
    (0x1FBF8, text "8"), (0x1FBF9, text "9")]

/-- `CONFUSABLES.get(ch)?.target`; no code point has two rows. -/
def confusableTarget (cp : Nat) : Option Text :=
  (CONFUSABLES_RAW.find? fun row => row.1 == cp).map Prod.snd

/-- What the generator of the table promises of a row. -/
def ConfusableRow.Curated (row : ConfusableRow) : Prop :=
  128 ≤ row.1 ∧ IsScalar row.1 ∧ row.2 ≠ [] ∧ (row.2.all fun u => decide (u.toNat < 128)) = true

instance : DecidablePred ConfusableRow.Curated := fun row => by
  unfold ConfusableRow.Curated
  infer_instance

theorem curated_rows : ∀ row ∈ CONFUSABLES_RAW, row.Curated := by decide +kernel

theorem sorted_rows : CONFUSABLES_RAW.IsChain fun row next => row.1 < next.1 := by decide +kernel

theorem curated_of_confusableTarget {cp : Nat} {target : Text}
    (h : confusableTarget cp = some target) : ConfusableRow.Curated (cp, target) := by
  obtain ⟨row, hrow, rfl⟩ := Option.map_eq_some_iff.mp h
  have hcp : row.1 = cp := by simpa using List.find?_some hrow
  rw [← hcp]
  exact curated_rows row (List.mem_of_find?_eq_some hrow)

theorem ascii_of_confusableTarget {cp : Nat} {target : Text}
    (h : confusableTarget cp = some target) : ∀ u ∈ target, u.toNat < 128 := by
  obtain ⟨-, -, -, hascii⟩ := curated_of_confusableTarget h
  intro u hu
  exact of_decide_eq_true (List.all_eq_true.mp hascii u hu)

/-- ASCII characters stand for themselves. -/
theorem confusableTarget_ascii {cp : Nat} (h : cp < 128) : confusableTarget cp = none := by
  cases htarget : confusableTarget cp with
  | none => rfl
  | some target =>
      have hlarge := (curated_of_confusableTarget htarget).1
      exact absurd hlarge (Nat.not_le_of_lt h)

/-- In a table sorted by its keys a key finds its own row. -/
theorem find?_of_sorted {rows : List ConfusableRow} {row : ConfusableRow}
    (hsorted : rows.Pairwise fun row next => row.1 < next.1) (h : row ∈ rows) :
    (rows.find? fun other => other.1 == row.1) = some row := by
  induction rows with
  | nil => cases h
  | cons first rows ih =>
      obtain ⟨hfirst, hrows⟩ := List.pairwise_cons.mp hsorted
      rcases List.mem_cons.mp h with rfl | hmem
      · exact List.find?_cons_of_pos (beq_self_eq_true _)
      · have hne : first.1 ≠ row.1 := Nat.ne_of_lt (hfirst row hmem)
        rw [List.find?_cons_of_neg (by simpa using hne)]
        exact ih hrows hmem

theorem confusableTarget_of_mem {row : ConfusableRow} (h : row ∈ CONFUSABLES_RAW) :
    confusableTarget row.1 = some row.2 := by
  rw [confusableTarget, find?_of_sorted (List.isChain_iff_pairwise.mp sorted_rows) h]
  rfl

end Linklint
