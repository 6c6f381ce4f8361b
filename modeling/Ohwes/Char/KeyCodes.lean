import Ohwes.Libc.Ctype

/-! # `kernel/input.h` and the key maps of `kernel/char/ps2kb.c`

A scan code is translated to a virtual key code by `scanmap`, or by `scanmapE0` after the prefix
`0xE0`, and a key code to a character by `keymap` or `keymapShift`. Key codes match the ASCII code of
the symbol printed on the key where possible; code 0 stands for no key. -/

namespace Ohwes
set_option autoImplicit false

def KEY_LCTRL : Nat := 1
def KEY_RCTRL : Nat := 2
def KEY_LSHIFT : Nat := 3
def KEY_RSHIFT : Nat := 4
def KEY_LALT : Nat := 5
def KEY_RALT : Nat := 6
def KEY_BREAK : Nat := 7
def KEY_BACKSPACE : Nat := 8
def KEY_TAB : Nat := 9
def KEY_ENTER : Nat := 10
def KEY_F1 : Nat := 11
def KEY_F2 : Nat := 12
def KEY_F3 : Nat := 13
def KEY_F4 : Nat := 14
def KEY_F5 : Nat := 15
def KEY_F6 : Nat := 16
def KEY_F7 : Nat := 17
def KEY_F8 : Nat := 18
def KEY_F9 : Nat := 19
def KEY_F10 : Nat := 20
def KEY_F11 : Nat := 21
def KEY_F12 : Nat := 22
def KEY_LWIN : Nat := 23
def KEY_RWIN : Nat := 24
def KEY_MENU : Nat := 25
def KEY_PAUSE : Nat := 26
def KEY_ESCAPE : Nat := 27
def KEY_SYSRQ : Nat := 28
def KEY_CAPSLK : Nat := 29
def KEY_NUMLK : Nat := 30
def KEY_SCRLK : Nat := 31
def KEY_SPACE : Nat := 32
def KEY_APOSTROPHE : Nat := 39
def KEY_KPASTERISK : Nat := 42
def KEY_KPPLUS : Nat := 43
def KEY_COMMA : Nat := 44
def KEY_MINUS : Nat := 45
def KEY_DOT : Nat := 46
def KEY_SLASH : Nat := 47
def KEY_0 : Nat := 48
def KEY_1 : Nat := 49
def KEY_2 : Nat := 50
def KEY_3 : Nat := 51
def KEY_4 : Nat := 52
def KEY_5 : Nat := 53
def KEY_6 : Nat := 54
def KEY_7 : Nat := 55
def KEY_8 : Nat := 56
def KEY_9 : Nat := 57
def KEY_SEMICOLON : Nat := 59
def KEY_EQUAL : Nat := 61
def KEY_A : Nat := 65
def KEY_B : Nat := 66
def KEY_C : Nat := 67
def KEY_D : Nat := 68
def KEY_E : Nat := 69
def KEY_F : Nat := 70
def KEY_G : Nat := 71
def KEY_H : Nat := 72
def KEY_I : Nat := 73
def KEY_J : Nat := 74
def KEY_K : Nat := 75
def KEY_L : Nat := 76
def KEY_M : Nat := 77
def KEY_N : Nat := 78
def KEY_O : Nat := 79
def KEY_P : Nat := 80
def KEY_Q : Nat := 81
def KEY_R : Nat := 82
def KEY_S : Nat := 83
def KEY_T : Nat := 84
def KEY_U : Nat := 85
def KEY_V : Nat := 86
def KEY_W : Nat := 87
def KEY_X : Nat := 88
def KEY_Y : Nat := 89
def KEY_Z : Nat := 90
def KEY_LEFTBRACKET : Nat := 91
def KEY_BACKSLASH : Nat := 92
def KEY_RIGHTBRACKET : Nat := 93
def KEY_GRAVE : Nat := 96
def KEY_KPMINUS : Nat := 97
def KEY_KPDOT : Nat := 98
def KEY_KPSLASH : Nat := 99
def KEY_KP0 : Nat := 100
def KEY_KP1 : Nat := 101
def KEY_KP2 : Nat := 102
def KEY_KP3 : Nat := 103
def KEY_KP4 : Nat := 104
def KEY_KP5 : Nat := 105
def KEY_KP6 : Nat := 106
def KEY_KP7 : Nat := 107
def KEY_KP8 : Nat := 108
def KEY_KP9 : Nat := 109
def KEY_KPENTER : Nat := 110
def KEY_PRTSC : Nat := 111
def KEY_INSERT : Nat := 112
def KEY_DELETE : Nat := 113
def KEY_HOME : Nat := 114
def KEY_END : Nat := 115
def KEY_PGUP : Nat := 116
def KEY_PGDOWN : Nat := 117
def KEY_LEFT : Nat := 118
def KEY_DOWN : Nat := 119
def KEY_RIGHT : Nat := 120
def KEY_UP : Nat := 121

def isAlt (k : Nat) : Bool := k == KEY_LALT || k == KEY_RALT
def isNumpad (k : Nat) : Bool := KEY_KP0 ≤ k && k ≤ KEY_KP9
def isFnkey (k : Nat) : Bool := KEY_F1 ≤ k && k ≤ KEY_F12

/-- The indices of a key that is one of the kind. -/
def numpadIndex (k : Nat) : Nat := k - KEY_KP0
def fnkeyIndex (k : Nat) : Nat := k - KEY_F1 + 1

/-- The key code `0xE0` marks a key without a character. The row `0x70` has one value less than the
others, and the rest of the 256 are zero. -/
def keymap : List Byte :=
  [0, 0, 0, 0, 0, 0, 0, 0, 0x7F, 0x09, 0x0D, 0xE0, 0xE0, 0xE0, 0xE0, 0xE0] ++
  [0xE0, 0xE0, 0xE0, 0xE0, 0xE0, 0xE0, 0xE0, 0, 0, 0, 0, 0x1B, 0, 0, 0, 0] ++
  [0x20, 0, 0, 0, 0, 0, 0, 0x27, 0, 0] ++ text ['*', '+', ',', '-', '.', '/'] ++
  text ['0', '1', '2', '3', '4', '5', '6', '7', '8', '9'] ++ [0, 0x3B, 0, 0x3D, 0, 0] ++
  [0] ++ text ['a', 'b', 'c', 'd', 'e', 'f', 'g', 'h', 'i', 'j', 'k', 'l', 'm', 'n', 'o'] ++
  text ['p', 'q', 'r', 's', 't', 'u', 'v', 'w', 'x', 'y', 'z', '['] ++ [0x5C, 0x5D, 0, 0] ++
  [0x60] ++ text ['-', '.', '/', '0', '1', '2', '3', '4', '5', '6', '7', '8', '9'] ++ [0x0D, 0xE0] ++
  [0xE0, 0xE0, 0xE0, 0xE0, 0xE0, 0xE0, 0xE0, 0xE0, 0xE0, 0xE0, 0, 0, 0, 0, 0] ++
  List.replicate 129 0

def keymapShift : List Byte :=
  [0, 0, 0, 0, 0, 0, 0, 0, 0x7F, 0x09, 0x0D, 0, 0, 0, 0, 0] ++
  [0, 0, 0, 0, 0, 0, 0, 0, 0, 0, 0, 0x1B, 0, 0, 0, 0] ++
  [0x20, 0, 0, 0, 0, 0, 0, 0x22, 0, 0] ++ text ['*', '+', '<', '_', '>', '?'] ++
  text [')', '!', '@', '#', '$', '%', '^', '&', '*', '('] ++ [0, 0x3A, 0, 0x2B, 0, 0] ++
  [0] ++ text ['A', 'B', 'C', 'D', 'E', 'F', 'G', 'H', 'I', 'J', 'K', 'L', 'M', 'N', 'O'] ++
  text ['P', 'Q', 'R', 'S', 'T', 'U', 'V', 'W', 'X', 'Y', 'Z'] ++ [0x7B, 0x7C, 0x7D, 0, 0] ++
  [0x7E] ++ text ['-', '.', '/', '0', '1', '2', '3', '4', '5', '6', '7', '8', '9'] ++ [0x0D, 0] ++
  [0, 0, 0, 0, 0, 0, 0, 0, 0, 0, 0, 0, 0, 0, 0, 0]

def scanmap : List Nat :=
  [ 0, KEY_ESCAPE, KEY_1, KEY_2, KEY_3, KEY_4, KEY_5, KEY_6,
    KEY_7, KEY_8, KEY_9, KEY_0, KEY_MINUS, KEY_EQUAL, KEY_BACKSPACE, KEY_TAB,
    KEY_Q, KEY_W, KEY_E, KEY_R, KEY_T, KEY_Y, KEY_U, KEY_I,
    KEY_O, KEY_P, KEY_LEFTBRACKET, KEY_RIGHTBRACKET, KEY_ENTER, KEY_LCTRL, KEY_A, KEY_S,
    KEY_D, KEY_F, KEY_G, KEY_H, KEY_J, KEY_K, KEY_L, KEY_SEMICOLON,
    KEY_APOSTROPHE, KEY_GRAVE, KEY_LSHIFT, KEY_BACKSLASH, KEY_Z, KEY_X, KEY_C, KEY_V,
    KEY_B, KEY_N, KEY_M, KEY_COMMA, KEY_DOT, KEY_SLASH, KEY_RSHIFT, KEY_KPASTERISK,
    KEY_LALT, KEY_SPACE, KEY_CAPSLK, KEY_F1, KEY_F2, KEY_F3, KEY_F4, KEY_F5,
    KEY_F6, KEY_F7, KEY_F8, KEY_F9, KEY_F10, KEY_NUMLK, KEY_SCRLK, KEY_KP7,
    KEY_KP8, KEY_KP9, KEY_KPMINUS, KEY_KP4, KEY_KP5, KEY_KP6, KEY_KPPLUS, KEY_KP1,
    KEY_KP2, KEY_KP3, KEY_KP0, KEY_KPDOT, KEY_SYSRQ, 0, 0, KEY_F11,
    KEY_F12, 0, 0, 0, 0, 0, 0, 0,
    0, 0, 0, 0, 0, 0, 0, 0,
    0, 0, 0, 0, 0, 0, 0, 0,
    0, 0, 0, 0, 0, 0, 0, 0,
    0, 0, 0, 0, 0, 0, 0, 0 ]

/-- After the prefix `0xE0`; the two shift keys are "fake shifts". -/
def scanmapE0 : List Nat :=
  [ 0, 0, 0, 0, 0, 0, 0, 0,
    0, 0, 0, 0, 0, 0, 0, 0,
    0, 0, 0, 0, 0, 0, 0, 0,
    0, 0, 0, 0, KEY_KPENTER, KEY_RCTRL, 0, 0,
    0, 0, 0, 0, 0, 0, 0, 0,
    0, 0, KEY_LSHIFT, 0, 0, 0, 0, 0,
    0, 0, 0, 0, 0, KEY_KPSLASH, KEY_RSHIFT, KEY_PRTSC,
    KEY_RALT, 0, 0, 0, 0, 0, 0, 0,
    0, 0, 0, 0, 0, 0, KEY_BREAK, KEY_HOME,
    KEY_UP, KEY_PGUP, 0, KEY_LEFT, 0, KEY_RIGHT, 0, KEY_END,
    KEY_DOWN, KEY_PGDOWN, KEY_INSERT, KEY_DELETE, 0, 0, 0, 0,
    0, 0, 0, KEY_LWIN, KEY_RWIN, KEY_MENU, 0, 0,
    0, 0, 0, 0, 0, 0, 0, 0,
    0, 0, 0, 0, 0, 0, 0, 0,
    0, 0, 0, 0, 0, 0, 0, 0,
    0, 0, 0, 0, 0, 0, 0, 0 ]

set_option maxRecDepth 2048 in
theorem keymap_length : keymap.length = 256 := by decide

theorem keymapShift_length : keymapShift.length = 128 := by simp [keymapShift, text]

theorem scanmap_length : scanmap.length = 128 := by simp [scanmap]

theorem scanmapE0_length : scanmapE0.length = 128 := by simp [scanmapE0]

end Ohwes
