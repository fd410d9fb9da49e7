import TableLog.Unicode.Runs

namespace TableLog.Unicode

/-- Combining classes other than 0. -/
def combiningRows : List (Nat × String) := [
  (1, "334-338 1cd4 1ce2-1ce8 20d2-20d3 20d8-20da 20e5-20e6 20ea-20eb 10a39 16af0-16af4 1bc9e"),
  (1, "1d167-1d169"),
  (6, "16ff0-16ff1"),
  (7, "93c 9bc a3c abc b3c c3c cbc 1037 1b34 1be6 1c37 a9b3 110ba 11173 111ca 11236 112e9"),
  (7, "1133b-1133c 11446 114c3 115c0 116b7 1183a 11943 11d42 1e94a"),
  (8, "3099-309a"),
  (9, "94d 9cd a4d acd b4d bcd c4d ccd d3b-d3c d4d dca e3a eba f84 1039-103a 1714-1715 1734 17d2"),
  (9, "1a60 1b44 1baa-1bab 1bf2-1bf3 2d7f a806 a82c a8c4 a953 a9c0 aaf6 abed 10a3f 11046 11070"),
  (9, "1107f 110b9 11133-11134 111c0 11235 112ea 1134d 113ce-113d0 11442 114c2 115bf 1163f 116b6"),
  (9, "1172b 11839 1193d-1193e 119e0 11a34 11a47 11a99 11c3f 11d44-11d45 11d97 11f41-11f42 1612f"),
  (10, "5b0"),
  (11, "5b1"),
  (12, "5b2"),
  (13, "5b3"),
  (14, "5b4"),
  (15, "5b5"),
  (16, "5b6"),
  (17, "5b7"),
  (18, "5b8 5c7"),
  (19, "5b9-5ba"),
  (20, "5bb"),
  (21, "5bc"),
  (22, "5bd"),
  (23, "5bf"),
  (24, "5c1"),
  (25, "5c2"),
  (26, "fb1e"),
  (27, "64b 8f0"),
  (28, "64c 8f1"),
  (29, "64d 8f2"),
  (30, "618 64e"),
  (31, "619 64f"),
  (32, "61a 650"),
  (33, "651"),
  (34, "652"),
  (35, "670"),
  (36, "711"),
  (84, "c55"),
  (91, "c56"),
  (103, "e38-e39"),
  (107, "e48-e4b"),
  (118, "eb8-eb9"),
  (122, "ec8-ecb"),
  (129, "f71"),
  (130, "f72 f7a-f7d f80"),
  (132, "f74"),
  (202, "321-322 327-328 1dd0"),
  (214, "1dce"),
  (216, "31b f39 1d165-1d166 1d16e-1d172"),
  (218, "1dfa 302a"),
  (220, "316-319 31c-320 323-326 329-333 339-33c 347-349 34d-34e 353-356 359-35a 591 596 59b"),
  (220, "5a2-5a7 5aa 5c5 655-656 65c 65f 6e3 6ea 6ed 731 734 737-739 73b-73c 73e 742 744 746 748"),
  (220, "7f2 7fd 859-85b 899-89b 8cf-8d3 8e3 8e6 8e9 8ed-8ef 8f6 8f9-8fa 952 f18-f19 f35 f37 fc6"),
  (220, "108d 193b 1a18 1a7f 1ab5-1aba 1abd 1abf-1ac0 1ac3-1ac4 1aca 1add 1ae6 1b6c 1cd5-1cd9"),
  (220, "1cdc-1cdf 1ced 1dc2 1dca 1dcf 1df9 1dfd 1dff 20e8 20ec-20ef a92b-a92d aab4 fe27-fe2d"),
  (220, "101fd 102e0 10a0d 10a3a 10ae6 10efa-10efb 10efd-10eff 10f46-10f47 10f4b 10f4d-10f50"),
  (220, "10f83 10f85 1d17b-1d182 1d18a-1d18b 1e4ee 1e5ef 1e8d0-1e8d6"),
  (222, "59a 5ad 1939 302d"),
  (224, "302e-302f"),
  (226, "1d16d"),
  (228, "5ae 18a9 1df7-1df8 302b"),
  (230, "300-314 33d-346 34a-34c 350-352 357 35b 363-36f 483-487 592-595 597-599 59c-5a1 5a8-5a9"),
  (230, "5ab-5ac 5af 5c4 610-617 653-654 657-65b 65d-65e 6d6-6dc 6df-6e2 6e4 6e7-6e8 6eb-6ec 730"),
  (230, "732-733 735-736 73a 73d 73f-741 743 745 747 749-74a 7eb-7f1 7f3 816-819 81b-823 825-827"),
  (230, "829-82d 897-898 89c-89f 8ca-8ce 8d4-8e1 8e4-8e5 8e7-8e8 8ea-8ec 8f3-8f5 8f7-8f8 8fb-8ff"),
  (230, "951 953-954 9fe f82-f83 f86-f87 135d-135f 17dd 193a 1a17 1a75-1a7c 1ab0-1ab4 1abb-1abc"),
  (230, "1ac1-1ac2 1ac5-1ac9 1acb-1adc 1ae0-1ae5 1ae7-1aea 1b6b 1b6d-1b73 1cd0-1cd2 1cda-1cdb"),
  (230, "1ce0 1cf4 1cf8-1cf9 1dc0-1dc1 1dc3-1dc9 1dcb-1dcc 1dd1-1df5 1dfb 1dfe 20d0-20d1"),
  (230, "20d4-20d7 20db-20dc 20e1 20e7 20e9 20f0 2cef-2cf1 2de0-2dff a66f a674-a67d a69e-a69f"),
  (230, "a6f0-a6f1 a8e0-a8f1 aab0 aab2-aab3 aab7-aab8 aabe-aabf aac1 fe20-fe26 fe2e-fe2f"),
  (230, "10376-1037a 10a0f 10a38 10ae5 10d24-10d27 10d69-10d6d 10eab-10eac 10f48-10f4a 10f4c"),
  (230, "10f82 10f84 11100-11102 11366-11374 1145e 16b30-16b36 1d185-1d189 1d1aa-1d1ad"),
  (230, "1d242-1d244 1e000-1e08f 1e130-1e136 1e2ae 1e2ec-1e2ef 1e4ef 1e5ee 1e6e3 1e6e6"),
  (230, "1e6ee-1e6ef 1e6f5 1e944-1e949"),
  (232, "315 31a 358 1df6 302c 1e4ec-1e4ed"),
  (233, "35c 35f 362 1dfc"),
  (234, "35d-35e 360-361 1aeb 1dcd")]

def combiningRuns : List (Nat × Runs) := combiningRows.map fun row ↦ (row.1, .read [row.2])

def combiningClass (c : Char) : Nat := ((combiningRuns.find? (·.2.contains c)).map (·.1)).getD 0

def virama : Nat := 9

/-- A character that follows, with words of a character that it follows and of what the two compose
to, where that stands for itself in names. -/
def compositionRows : List (Nat × String) := [
  (0x300, "aà eè iì nǹ oò uù wẁ yỳ âầ êề ôồ üǜ ăằ ēḕ ōṑ ơờ ưừ αὰ εὲ ηὴ ιὶ οὸ υὺ ωὼ ϊῒ ϋῢ еѐ иѝ ἀἂ"),
  (0x300, "ἁἃ ἐἒ ἑἓ ἠἢ ἡἣ ἰἲ ἱἳ ὀὂ ὁὃ ὐὒ ὑὓ ὠὢ ὡὣ"),
  (0x301, "aá cć eé gǵ ií kḱ lĺ mḿ nń oó pṕ rŕ sś uú wẃ yý zź âấ åǻ æǽ çḉ êế ïḯ ôố õṍ øǿ üǘ ăắ ēḗ"),
  (0x301, "ōṓ ũṹ ơớ ưứ αά εέ ηή ιί οό υύ ωώ ϊΐ ϋΰ гѓ кќ ἀἄ ἁἅ ἐἔ ἑἕ ἠἤ ἡἥ ἰἴ ἱἵ ὀὄ ὁὅ ὐὔ ὑὕ ὠὤ ὡὥ"),
  (0x302, "aâ cĉ eê gĝ hĥ iî jĵ oô sŝ uû wŵ yŷ zẑ ạậ ẹệ ọộ"),
  (0x303, "aã eẽ iĩ nñ oõ uũ vṽ yỹ âẫ êễ ôỗ ăẵ ơỡ ưữ"),
  (0x304, "aā eē gḡ iī oō uū yȳ äǟ æǣ õȭ öȫ üǖ ǫǭ ȧǡ ȯȱ αᾱ ιῑ υῡ иӣ уӯ ḷḹ ṛṝ"),
  (0x306, "aă eĕ gğ iĭ oŏ uŭ ȩḝ αᾰ ιῐ υῠ аӑ еӗ жӂ ий уў ạặ"),
  (0x307, "aȧ bḃ cċ dḋ eė fḟ gġ hḣ mṁ nṅ oȯ pṗ rṙ sṡ tṫ wẇ xẋ yẏ zż śṥ šṧ ṣṩ 𐗒𐗉 𐗚𐗤"),
  (0x308, "aä eë hḧ iï oö tẗ uü wẅ xẍ yÿ õṏ ūṻ ιϊ υϋ аӓ её жӝ зӟ иӥ оӧ уӱ чӵ ыӹ эӭ ії әӛ өӫ"),
  (0x309, "aả eẻ iỉ oỏ uủ yỷ âẩ êể ôổ ăẳ ơở ưử"),
  (0x30A, "aå uů wẘ yẙ"),
  (0x30B, "oő uű уӳ"),
  (0x30C, "aǎ cč dď eě gǧ hȟ iǐ jǰ kǩ lľ nň oǒ rř sš tť uǔ zž üǚ ʒǯ"),
  (0x30F, "aȁ eȅ iȉ oȍ rȑ uȕ ѵѷ"),
  (0x311, "aȃ eȇ iȋ oȏ rȓ uȗ"),
  (0x313, "αἀ εἐ ηἠ ιἰ οὀ ρῤ υὐ ωὠ"),
  (0x314, "αἁ εἑ ηἡ ιἱ οὁ ρῥ υὑ ωὡ"),
  (0x31B, "oơ uư"),
  (0x323, "aạ bḅ dḍ eẹ hḥ iị kḳ lḷ mṃ nṇ oọ rṛ sṣ tṭ uụ vṿ wẉ yỵ zẓ ơợ ưự"),
  (0x324, "uṳ"),
  (0x325, "aḁ"),
  (0x326, "sș tț"),
  (0x327, "cç dḑ eȩ gģ hḩ kķ lļ nņ rŗ sş tţ"),
  (0x328, "aą eę iį oǫ uų"),
  (0x32D, "dḓ eḙ lḽ nṋ tṱ uṷ"),
  (0x32E, "hḫ"),
  (0x330, "eḛ iḭ uṵ"),
  (0x331, "bḇ dḏ hẖ kḵ lḻ nṉ rṟ tṯ zẕ"),
  (0x338, "<≮ =≠ >≯ ←↚ →↛ ↔↮ ⇐⇍ ⇒⇏ ⇔⇎ ∃∄ ∈∉ ∋∌ ∣∤ ∥∦ ∼≁ ≃≄ ≅≇ ≈≉ ≍≭ ≡≢ ≤≰ ≥≱ ≲≴ ≳≵ ≶≸ ≷≹ ≺⊀ ≻⊁ ≼⋠"),
  (0x338, "≽⋡ ⊂⊄ ⊃⊅ ⊆⊈ ⊇⊉ ⊑⋢ ⊒⋣ ⊢⊬ ⊨⊭ ⊩⊮ ⊫⊯ ⊲⋪ ⊳⋫ ⊴⋬ ⊵⋭"),
  (0x342, "αᾶ ηῆ ιῖ υῦ ωῶ ϊῗ ϋῧ ἀἆ ἁἇ ἠἦ ἡἧ ἰἶ ἱἷ ὐὖ ὑὗ ὠὦ ὡὧ"),
  (0x653, "اآ"),
  (0x654, "اأ وؤ يئ ہۂ ےۓ ەۀ"),
  (0x655, "اإ"),
  (0x93C, "नऩ रऱ ळऴ"),
  (0x9BE, "\u09c7\u09cb"),
  (0x9D7, "\u09c7\u09cc"),
  (0xB3E, "\u0b47\u0b4b"),
  (0xB56, "\u0b47\u0b48"),
  (0xB57, "\u0b47\u0b4c"),
  (0xBBE, "\u0bc6\u0bca \u0bc7\u0bcb"),
  (0xBD7, "ஒஔ \u0bc6\u0bcc"),
  (0xC56, "\u0c46\u0c48"),
  (0xCC2, "ೆ\u0cca"),
  (0xCD5, "ಿ\u0cc0 ೆ\u0cc7 \u0cca\u0ccb"),
  (0xCD6, "ೆ\u0cc8"),
  (0xD3E, "\u0d46\u0d4a \u0d47\u0d4b"),
  (0xD57, "\u0d46\u0d4c"),
  (0xDCA, "\u0dd9\u0dda \u0ddc\u0ddd"),
  (0xDCF, "\u0dd9\u0ddc"),
  (0xDDF, "\u0dd9\u0dde"),
  (0x102E, "ဥဦ"),
  (0x1B35, "ᬅᬆ ᬇᬈ ᬉᬊ ᬋᬌ ᬍᬎ ᬑᬒ \u1b3a\u1b3b \u1b3c\u1b3d \u1b3e\u1b40 \u1b3f\u1b41 \u1b42\u1b43"),
  (0x3099, "うゔ かが きぎ くぐ けげ こご さざ しじ すず せぜ そぞ ただ ちぢ つづ てで とど はば ひび ふぶ へべ ほぼ ゝゞ ウヴ カガ キギ クグ ケゲ コゴ"),
  (0x3099, "サザ シジ スズ セゼ ソゾ タダ チヂ ツヅ テデ トド ハバ ヒビ フブ ヘベ ホボ ワヷ ヰヸ ヱヹ ヲヺ ヽヾ"),
  (0x309A, "はぱ ひぴ ふぷ へぺ ほぽ ハパ ヒピ フプ ヘペ ホポ"),
  (0x110BA, "𑂙𑂚 𑂛𑂜 𑂥𑂫"),
  (0x11127, "𑄱𑄮 𑄲𑄯"),
  (0x1133E, "𑍇𑍋"),
  (0x11357, "𑍇𑍌"),
  (0x113B8, "𑏅𑎸"),
  (0x113BB, "𑎄𑎅"),
  (0x113C2, "𑎋𑎎 𑏅𑏂"),
  (0x113C9, "𑎂𑎃 𑎐𑎑 𑏅𑏉"),
  (0x114B0, "𑒹𑒼"),
  (0x114BA, "𑒹𑒻"),
  (0x114BD, "𑒹𑒾"),
  (0x115AF, "𑖸𑖺 𑖹𑖻"),
  (0x11930, "𑤵𑤸"),
  (0x1611E, "𖄡𖄞"),
  (0x1611F, "𖄦 𖄡𖄦 𖄢𖄧 𖄩𖄤"),
  (0x16120, "𖄨 𖄡𖄨"),
  (0x16129, "𖄡𖄩"),
  (0x16D67, "𖵣𖵩 𖵨𖵧 𖵩𖵪")]

structure Composition where
  first : Char
  second : Char
  whole : Char

def compositions : List Composition :=
  compositionRows.flatMap fun row ↦ (row.2.splitOn " ").filterMap fun word ↦
    match word.toList with
    | [first, whole] => some { first, second := Char.ofNat row.1, whole }
    | _ => none

namespace Hangul

def syllables : Nat := 0xAC00

def leads : Nat := 0x1100

def vowels : Nat := 0x1161

/-- The code point before the first trailing consonant. -/
def tails : Nat := 0x11A7

/-- A syllable without a trailing consonant, and the consonant, or a
leading consonant and a vowel. -/
def split? (c : Char) : Option (Char × Char) :=
  let n := c.toNat - syllables
  if c.toNat < syllables || 11172 ≤ n then none
  else if n % 28 = 0 then some (.ofNat (leads + n / 588), .ofNat (vowels + n / 28 % 21))
  else some (.ofNat (c.toNat - n % 28), .ofNat (tails + n % 28))

def join? (a b : Char) : Option Char :=
  if leads ≤ a.toNat && a.toNat < leads + 19 && vowels ≤ b.toNat && b.toNat < vowels + 21 then
    some (.ofNat (syllables + (a.toNat - leads) * 588 + (b.toNat - vowels) * 28))
  else if syllables ≤ a.toNat && a.toNat < syllables + 11172 && (a.toNat - syllables) % 28 = 0 &&
      tails < b.toNat && b.toNat < tails + 28 then
    some (.ofNat (a.toNat + (b.toNat - tails)))
  else none

end Hangul

def split? (c : Char) : Option (Char × Char) :=
  match Hangul.split? c with
  | some p => some p
  | none => (compositions.find? (·.whole = c)).map fun k ↦ (k.first, k.second)

def join? (a b : Char) : Option Char :=
  match Hangul.join? a b with
  | some c => some c
  | none => (compositions.find? fun k ↦ k.first = a && k.second = b).map (·.whole)

def parts : Nat → Char → List Char
  | 0, c => [c]
  | n + 1, c =>
    match split? c with
    | none => [c]
    | some (a, b) => parts n a ++ [b]

/-- Nothing is composed of more than three characters. -/
def decompose (cs : List Char) : List Char := cs.flatMap (parts 2)

/-- Puts a mark before the first one that is not of a lower class. -/
def insertMark (c : Char) : List Char → List Char
  | [] => [c]
  | d :: r => if combiningClass d < combiningClass c then d :: insertMark c r else c :: d :: r

def order (cs : List Char) : List Char :=
  cs.foldr (fun c acc ↦
    if combiningClass c = 0 then c :: acc
    else
      let marks := acc.takeWhile (combiningClass · ≠ 0)
      insertMark c marks ++ acc.drop marks.length) []

/-- A text under composition, each part in reverse: what is done, the character that the next may
compose with, and the marks after it. -/
structure Composing where
  done : List Char := []
  base : Option Char := none
  marks : List Char := []

namespace Composing

def reversed (s : Composing) : List Char := s.marks ++ s.base.toList ++ s.done

/-- A mark of the same or a higher class stands in the way. -/
def reaches (s : Composing) (c : Char) : Bool :=
  s.marks.head?.all (combiningClass · < combiningClass c)

def push (s : Composing) (c : Char) : Composing :=
  match s.base.bind fun b ↦ if s.reaches c then join? b c else none with
  | some b => { s with base := some b }
  | none =>
    if combiningClass c = 0 then { done := s.reversed, base := some c }
    else { s with marks := c :: s.marks }

end Composing

def compose (cs : List Char) : List Char := (cs.foldl Composing.push {}).reversed.reverse

def normalize (cs : List Char) : List Char := compose (order (decompose cs))

end TableLog.Unicode
