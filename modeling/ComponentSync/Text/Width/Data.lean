/-!
The Unicode data behind column widths, as ranges of code points written in hexadecimal. Each
range of the class table carries a letter for the class of its characters; a code point in no
range is an ordinary character one column wide.

The classes come from the Unicode Character Database: characters that are default-ignorable,
extend a grapheme, are Hangul medial vowels or final consonants, or are prepended marks that
are not concatenation marks take no column; East Asian wide and fullwidth characters take two.
Characters that take part in a sequence whose width is not the sum of its parts have a class of
their own: emoji shown as emoji by default, emoji modifiers, regional indicators, the Arabic
letters of the Alef joining group, the Hebrew letter Lamed, the Khmer letters that a coeng sign
may subscript, the Buginese letter Ya, the Tifinagh consonants, the two Lisu tone letters that
end a tone combination, the Old Turkic letter Orkhon I, and the two variation selectors that ask
for text or emoji presentation. The Khmer sign Beyyal takes three columns.

Letters: `0` no column, `2` two columns, `3` three columns, `E` emoji, `M` emoji modifier, `R`
regional indicator, `A` Alef, `H` Lamed, `K` Khmer letter, `B` Buginese Ya, `T` Tifinagh
consonant, `L` Lisu tone letter, `O` Orkhon I, `S` emoji presentation selector, `X` text
presentation selector.
-/
namespace ComponentSync.Text

/-- The class table: a first and last code point and a class letter per range. -/
def widthClassData : String :=
  String.intercalate " "
    ["AD AD 0 300 36F 0 483 489 0 591 5BD 0 5BF 5BF 0 5C1 5C2 0 5C4 5C5 0 5C7 5C7 0 5DC 5DC H",
    "605 605 0 610 61A 0 61C 61C 0 622 623 A 625 625 A 627 627 A 64B 65F 0 670 670 0 671 673 A",
    "675 675 A 6D6 6DC 0 6DF 6E4 0 6E7 6E8 0 6EA 6ED 0 70F 70F 0 711 711 0 730 74A 0 773 774 A",
    "7A6 7B0 0 7EB 7F3 0 7FD 7FD 0 816 819 0 81B 823 0 825 827 0 829 82D 0 859 85B 0 870 882 A",
    "890 891 0 898 89F 0 8CA 902 0 93A 93A 0 93C 93C 0 941 948 0 94D 94D 0 951 957 0 962 963 0",
    "981 981 0 9BC 9BC 0 9BE 9BE 0 9C1 9C4 0 9CD 9CD 0 9D7 9D7 0 9E2 9E3 0 9FE 9FE 0 A01 A02 0",
    "A3C A3C 0 A41 A42 0 A47 A48 0 A4B A4D 0 A51 A51 0 A70 A71 0 A75 A75 0 A81 A82 0 ABC ABC 0",
    "AC1 AC5 0 AC7 AC8 0 ACD ACD 0 AE2 AE3 0 AFA AFF 0 B01 B01 0 B3C B3C 0 B3E B3F 0 B41 B44 0",
    "B4D B4D 0 B55 B57 0 B62 B63 0 B82 B82 0 BBE BBE 0 BC0 BC0 0 BCD BCD 0 BD7 BD7 0 C00 C00 0",
    "C04 C04 0 C3C C3C 0 C3E C40 0 C46 C48 0 C4A C4D 0 C55 C56 0 C62 C63 0 C81 C81 0 CBC CBC 0",
    "CBF CC0 0 CC2 CC2 0 CC6 CC8 0 CCA CCD 0 CD5 CD6 0 CE2 CE3 0 D00 D01 0 D3B D3C 0 D3E D3E 0",
    "D41 D44 0 D4D D4E 0 D57 D57 0 D62 D63 0 D81 D81 0 DCA DCA 0 DCF DCF 0 DD2 DD4 0 DD6 DD6 0",
    "DDF DDF 0 E31 E31 0 E34 E3A 0 E47 E4E 0 EB1 EB1 0 EB4 EBC 0 EC8 ECE 0 F18 F19 0 F35 F35 0",
    "F37 F37 0 F39 F39 0 F71 F7E 0 F80 F84 0 F86 F87 0 F8D F97 0 F99 FBC 0 FC6 FC6 0 102D 1030 0",
    "1032 1037 0 1039 103A 0 103D 103E 0 1058 1059 0 105E 1060 0 1071 1074 0 1082 1082 0",
    "1085 1086 0 108D 108D 0 109D 109D 0 1100 115F 2 1160 11FF 0 135D 135F 0 1712 1714 0",
    "1732 1733 0 1752 1753 0 1772 1773 0 1780 1782 K 1784 1787 K 1789 178C K 178E 1793 K",
    "1795 1798 K 179B 179D K 17A0 17A0 K 17A2 17A2 K 17A4 17A4 2 17A7 17A7 K 17AB 17AC K",
    "17AF 17AF K 17B4 17B5 0 17B7 17BD 0 17C6 17C6 0 17C9 17D3 0 17D8 17D8 3 17DD 17DD 0",
    "180B 180F 0 1885 1886 0 18A9 18A9 0 1920 1922 0 1927 1928 0 1932 1932 0 1939 193B 0",
    "1A10 1A10 B 1A17 1A18 0 1A1B 1A1B 0 1A56 1A56 0 1A58 1A5E 0 1A60 1A60 0 1A62 1A62 0",
    "1A65 1A6C 0 1A73 1A7C 0 1A7F 1A7F 0 1AB0 1ACE 0 1B00 1B03 0 1B34 1B3D 0 1B42 1B43 0",
    "1B6B 1B73 0 1B80 1B81 0 1BA2 1BA5 0 1BA8 1BA9 0 1BAB 1BAD 0 1BE6 1BE6 0 1BE8 1BE9 0",
    "1BED 1BED 0 1BEF 1BF1 0 1C2C 1C33 0 1C36 1C37 0 1CD0 1CD2 0 1CD4 1CE0 0 1CE2 1CE8 0",
    "1CED 1CED 0 1CF4 1CF4 0 1CF8 1CF9 0 1DC0 1DFF 0 200B 200F 0 202A 202E 0 2060 206F 0",
    "20D0 20F0 0 231A 231B E 2329 232A 2 23E9 23EC E 23F0 23F0 E 23F3 23F3 E 25FD 25FE E",
    "2614 2615 E 2648 2653 E 267F 267F E 2693 2693 E 26A1 26A1 E 26AA 26AB E 26BD 26BE E",
    "26C4 26C5 E 26CE 26CE E 26D4 26D4 E 26EA 26EA E 26F2 26F3 E 26F5 26F5 E 26FA 26FA E",
    "26FD 26FD E 2705 2705 E 270A 270B E 2728 2728 E 274C 274C E 274E 274E E 2753 2755 E",
    "2757 2757 E 2795 2797 E 27B0 27B0 E 27BF 27BF E 2B1B 2B1C E 2B50 2B50 E 2B55 2B55 E",
    "2CEF 2CF1 0 2D31 2D65 T 2D6F 2D6F T 2DE0 2DFF 0 2E80 2E99 2 2E9B 2EF3 2 2F00 2FD5 2",
    "2FF0 3029 2 302A 302F 0 3030 303E 2 3041 3096 2 3099 309A 0 309B 30FF 2 3105 312F 2",
    "3131 3163 2 3164 3164 0 3165 318E 2 3190 31E3 2 31EF 321E 2 3220 3247 2 3250 4DBF 2",
    "4E00 A48C 2 A490 A4C6 2 A4FC A4FD L A66F A672 0 A674 A67D 0 A69E A69F 0 A6F0 A6F1 0",
    "A802 A802 0 A806 A806 0 A80B A80B 0 A825 A826 0 A82C A82C 0 A8C4 A8C5 0 A8E0 A8F1 0",
    "A8FA A8FA 0 A8FF A8FF 0 A926 A92D 0 A947 A951 0 A960 A97C 2 A980 A982 0 A9B3 A9B3 0",
    "A9B6 A9B9 0 A9BC A9BD 0 A9E5 A9E5 0 AA29 AA2E 0 AA31 AA32 0 AA35 AA36 0 AA43 AA43 0",
    "AA4C AA4C 0 AA7C AA7C 0 AAB0 AAB0 0 AAB2 AAB4 0 AAB7 AAB8 0 AABE AABF 0 AAC1 AAC1 0",
    "AAEC AAED 0 AAF6 AAF6 0 ABE5 ABE5 0 ABE8 ABE8 0 ABED ABED 0 AC00 D7A3 2 D7B0 D7C6 0",
    "D7CB D7FB 0 F900 FAFF 2 FB1E FB1E 0 FE00 FE0D 0 FE0E FE0E X FE0F FE0F S FE10 FE19 2",
    "FE20 FE2F 0 FE30 FE52 2 FE54 FE66 2 FE68 FE6B 2 FEFF FEFF 0 FF01 FF60 2 FF9E FFA0 0",
    "FFE0 FFE6 2 FFF0 FFF8 0 101FD 101FD 0 102E0 102E0 0 10376 1037A 0 10A01 10A03 0 10A05 10A06 0",
    "10A0C 10A0F 0 10A38 10A3A 0 10A3F 10A3F 0 10AE5 10AE6 0 10C03 10C03 O 10D24 10D27 0",
    "10EAB 10EAC 0 10EFD 10EFF 0 10F46 10F50 0 10F82 10F85 0 11001 11001 0 11038 11046 0",
    "11070 11070 0 11073 11074 0 1107F 11081 0 110B3 110B6 0 110B9 110BA 0 110C2 110C2 0",
    "11100 11102 0 11127 1112B 0 1112D 11134 0 11173 11173 0 11180 11181 0 111B6 111BE 0",
    "111C2 111C3 0 111C9 111CC 0 111CF 111CF 0 1122F 11231 0 11234 11234 0 11236 11237 0",
    "1123E 1123E 0 11241 11241 0 112DF 112DF 0 112E3 112EA 0 11300 11301 0 1133B 1133C 0",
    "1133E 1133E 0 11340 11340 0 11357 11357 0 11366 1136C 0 11370 11374 0 11438 1143F 0",
    "11442 11444 0 11446 11446 0 1145E 1145E 0 114B0 114B0 0 114B3 114B8 0 114BA 114BA 0",
    "114BD 114BD 0 114BF 114C0 0 114C2 114C3 0 115AF 115AF 0 115B2 115B5 0 115BC 115BD 0",
    "115BF 115C0 0 115DC 115DD 0 11633 1163A 0 1163D 1163D 0 1163F 11640 0 116AB 116AB 0",
    "116AD 116AD 0 116B0 116B5 0 116B7 116B7 0 1171D 1171F 0 11722 11725 0 11727 1172B 0",
    "1182F 11837 0 11839 1183A 0 11930 11930 0 1193B 1193C 0 1193E 1193F 0 11941 11941 0",
    "11943 11943 0 119D4 119D7 0 119DA 119DB 0 119E0 119E0 0 11A01 11A0A 0 11A33 11A38 0",
    "11A3A 11A3E 0 11A47 11A47 0 11A51 11A56 0 11A59 11A5B 0 11A84 11A96 0 11A98 11A99 0",
    "11C30 11C36 0 11C38 11C3D 0 11C3F 11C3F 0 11C92 11CA7 0 11CAA 11CB0 0 11CB2 11CB3 0",
    "11CB5 11CB6 0 11D31 11D36 0 11D3A 11D3A 0 11D3C 11D3D 0 11D3F 11D47 0 11D90 11D91 0",
    "11D95 11D95 0 11D97 11D97 0 11EF3 11EF4 0 11F00 11F02 0 11F36 11F3A 0 11F40 11F40 0",
    "11F42 11F42 0 13440 13440 0 13447 13455 0 16AF0 16AF4 0 16B30 16B36 0 16F4F 16F4F 0",
    "16F8F 16F92 0 16FE0 16FE3 2 16FE4 16FE4 0 16FF0 16FF1 2 17000 187F7 2 18800 18CD5 2",
    "18D00 18D08 2 1AFF0 1AFF3 2 1AFF5 1AFFB 2 1AFFD 1AFFE 2 1B000 1B122 2 1B132 1B132 2",
    "1B150 1B152 2 1B155 1B155 2 1B164 1B167 2 1B170 1B2FB 2 1BC9D 1BC9E 0 1BCA0 1BCA3 0",
    "1CF00 1CF2D 0 1CF30 1CF46 0 1D165 1D165 0 1D167 1D169 0 1D16E 1D182 0 1D185 1D18B 0",
    "1D1AA 1D1AD 0 1D242 1D244 0 1DA00 1DA36 0 1DA3B 1DA6C 0 1DA75 1DA75 0 1DA84 1DA84 0",
    "1DA9B 1DA9F 0 1DAA1 1DAAF 0 1E000 1E006 0 1E008 1E018 0 1E01B 1E021 0 1E023 1E024 0",
    "1E026 1E02A 0 1E08F 1E08F 0 1E130 1E136 0 1E2AE 1E2AE 0 1E2EC 1E2EF 0 1E4EC 1E4EF 0",
    "1E8D0 1E8D6 0 1E944 1E94A 0 1F004 1F004 E 1F0CF 1F0CF E 1F18E 1F18E E 1F191 1F19A E",
    "1F1E6 1F1FF R 1F200 1F200 2 1F201 1F201 E 1F202 1F202 2 1F210 1F219 2 1F21A 1F21A E",
    "1F21B 1F22E 2 1F22F 1F22F E 1F230 1F231 2 1F232 1F236 E 1F237 1F237 2 1F238 1F23A E",
    "1F23B 1F23B 2 1F240 1F248 2 1F250 1F251 E 1F260 1F265 2 1F300 1F320 E 1F32D 1F335 E",
    "1F337 1F37C E 1F37E 1F393 E 1F3A0 1F3CA E 1F3CF 1F3D3 E 1F3E0 1F3F0 E 1F3F4 1F3F4 E",
    "1F3F8 1F3FA E 1F3FB 1F3FF M 1F400 1F43E E 1F440 1F440 E 1F442 1F4FC E 1F4FF 1F53D E",
    "1F54B 1F54E E 1F550 1F567 E 1F57A 1F57A E 1F595 1F596 E 1F5A4 1F5A4 E 1F5FB 1F64F E",
    "1F680 1F6C5 E 1F6CC 1F6CC E 1F6D0 1F6D2 E 1F6D5 1F6D7 E 1F6DC 1F6DF E 1F6EB 1F6EC E",
    "1F6F4 1F6FC E 1F7E0 1F7EB E 1F7F0 1F7F0 E 1F90C 1F93A E 1F93C 1F945 E 1F947 1F9FF E",
    "1FA70 1FA7C E 1FA80 1FA88 E 1FA90 1FABD E 1FABF 1FAC5 E 1FACE 1FADB E 1FAE0 1FAE8 E",
    "1FAF0 1FAF8 E 20000 2FFFD 2 30000 3FFFD 2 E0000 E0FFF 0"]

/-- The characters that start an emoji presentation sequence but are shown as text by default. -/
def emojiStarterData : String :=
  String.intercalate " "
    ["23 23 2A 2A 30 39 A9 A9 AE AE 203C 203C 2049 2049 2122 2122 2139 2139 2194 2199 21A9 21AA",
    "2328 2328 23CF 23CF 23ED 23EF 23F1 23F2 23F8 23FA 24C2 24C2 25AA 25AB 25B6 25B6 25C0 25C0",
    "25FB 25FC 2600 2604 260E 260E 2611 2611 2618 2618 261D 261D 2620 2620 2622 2623 2626 2626",
    "262A 262A 262E 262F 2638 263A 2640 2640 2642 2642 265F 2660 2663 2663 2665 2666 2668 2668",
    "267B 267B 267E 267E 2692 2692 2694 2697 2699 2699 269B 269C 26A0 26A0 26A7 26A7 26B0 26B1",
    "26C8 26C8 26CF 26CF 26D1 26D1 26D3 26D3 26E9 26E9 26F0 26F1 26F4 26F4 26F7 26F9 2702 2702",
    "2708 2709 270C 270D 270F 270F 2712 2712 2714 2714 2716 2716 271D 271D 2721 2721 2733 2734",
    "2744 2744 2747 2747 2763 2764 27A1 27A1 2934 2935 2B05 2B07 3030 3030 303D 303D 3297 3297",
    "3299 3299 1F170 1F171 1F17E 1F17F 1F202 1F202 1F237 1F237 1F321 1F321 1F324 1F32C 1F336 1F336",
    "1F37D 1F37D 1F396 1F397 1F399 1F39B 1F39E 1F39F 1F3CB 1F3CE 1F3D4 1F3DF 1F3F3 1F3F3",
    "1F3F5 1F3F5 1F3F7 1F3F7 1F43F 1F43F 1F441 1F441 1F4FD 1F4FD 1F549 1F54A 1F56F 1F570",
    "1F573 1F579 1F587 1F587 1F58A 1F58D 1F590 1F590 1F5A5 1F5A5 1F5A8 1F5A8 1F5B1 1F5B2",
    "1F5BC 1F5BC 1F5C2 1F5C4 1F5D1 1F5D3 1F5DC 1F5DE 1F5E1 1F5E1 1F5E3 1F5E3 1F5E8 1F5E8",
    "1F5EF 1F5EF 1F5F3 1F5F3 1F5FA 1F5FA 1F6CB 1F6CB 1F6CD 1F6CF 1F6E0 1F6E5 1F6E9 1F6E9",
    "1F6F0 1F6F0 1F6F3 1F6F3"]

/-- The characters that start a text presentation sequence, outside the Enclosed Ideographic
Supplement. -/
def textStarterData : String :=
  String.intercalate " "
    ["23 23 2A 2A 30 39 A9 A9 AE AE 203C 203C 2049 2049 2122 2122 2139 2139 2194 2199 21A9 21AA",
    "231A 231B 2328 2328 23CF 23CF 23E9 23EA 23ED 23EF 23F1 23F3 23F8 23FA 24C2 24C2 25AA 25AB",
    "25B6 25B6 25C0 25C0 25FB 25FE 2600 2604 260E 260E 2611 2611 2614 2615 2618 2618 261D 261D",
    "2620 2620 2622 2623 2626 2626 262A 262A 262E 262F 2638 263A 2640 2640 2642 2642 2648 2653",
    "265F 2660 2663 2663 2665 2666 2668 2668 267B 267B 267E 267F 2692 2697 2699 2699 269B 269C",
    "26A0 26A1 26A7 26A7 26AA 26AB 26B0 26B1 26BD 26BE 26C4 26C5 26C8 26C8 26CF 26CF 26D1 26D1",
    "26D3 26D4 26E9 26EA 26F0 26F5 26F7 26FA 26FD 26FD 2702 2702 2708 2709 270C 270D 270F 270F",
    "2712 2712 2714 2714 2716 2716 271D 271D 2721 2721 2733 2734 2744 2744 2747 2747 2757 2757",
    "2763 2764 27A1 27A1 2934 2935 2B05 2B07 2B1B 2B1C 2B50 2B50 2B55 2B55 1F004 1F004 1F170 1F171",
    "1F17E 1F17F 1F30D 1F30F 1F315 1F315 1F31C 1F31C 1F321 1F321 1F324 1F32C 1F336 1F336",
    "1F378 1F378 1F37D 1F37D 1F393 1F393 1F396 1F397 1F399 1F39B 1F39E 1F39F 1F3A7 1F3A7",
    "1F3AC 1F3AE 1F3C2 1F3C2 1F3C4 1F3C4 1F3C6 1F3C6 1F3CA 1F3CE 1F3D4 1F3E0 1F3ED 1F3ED",
    "1F3F3 1F3F3 1F3F5 1F3F5 1F3F7 1F3F7 1F408 1F408 1F415 1F415 1F41F 1F41F 1F426 1F426",
    "1F43F 1F43F 1F441 1F442 1F446 1F449 1F44D 1F44E 1F453 1F453 1F46A 1F46A 1F47D 1F47D",
    "1F4A3 1F4A3 1F4B0 1F4B0 1F4B3 1F4B3 1F4BB 1F4BB 1F4BF 1F4BF 1F4CB 1F4CB 1F4DA 1F4DA",
    "1F4DF 1F4DF 1F4E4 1F4E6 1F4EA 1F4ED 1F4F7 1F4F7 1F4F9 1F4FB 1F4FD 1F4FD 1F508 1F508",
    "1F50D 1F50D 1F512 1F513 1F549 1F54A 1F550 1F567 1F56F 1F570 1F573 1F579 1F587 1F587",
    "1F58A 1F58D 1F590 1F590 1F5A5 1F5A5 1F5A8 1F5A8 1F5B1 1F5B2 1F5BC 1F5BC 1F5C2 1F5C4",
    "1F5D1 1F5D3 1F5DC 1F5DE 1F5E1 1F5E1 1F5E3 1F5E3 1F5E8 1F5E8 1F5EF 1F5EF 1F5F3 1F5F3",
    "1F5FA 1F5FA 1F610 1F610 1F687 1F687 1F68D 1F68D 1F691 1F691 1F694 1F694 1F698 1F698",
    "1F6AD 1F6AD 1F6B2 1F6B2 1F6B9 1F6BA 1F6BC 1F6BC 1F6CB 1F6CB 1F6CD 1F6CF 1F6E0 1F6E5",
    "1F6E9 1F6E9 1F6F0 1F6F0 1F6F3 1F6F3"]

def modifierBaseData : String :=
  String.intercalate " "
    ["261D 261D 26F9 26F9 270A 270D 1F385 1F385 1F3C2 1F3C4 1F3C7 1F3C7 1F3CA 1F3CC 1F442 1F443",
    "1F446 1F450 1F466 1F478 1F47C 1F47C 1F481 1F483 1F485 1F487 1F48F 1F48F 1F491 1F491",
    "1F4AA 1F4AA 1F574 1F575 1F57A 1F57A 1F590 1F590 1F595 1F596 1F645 1F647 1F64B 1F64F",
    "1F6A3 1F6A3 1F6B4 1F6B6 1F6C0 1F6C0 1F6CC 1F6CC 1F90C 1F90C 1F90F 1F90F 1F918 1F91F",
    "1F926 1F926 1F930 1F939 1F93C 1F93E 1F977 1F977 1F9B5 1F9B6 1F9B8 1F9B9 1F9BB 1F9BB",
    "1F9CD 1F9CF 1F9D1 1F9DD 1FAC3 1FAC5 1FAF0 1FAF8"]

/-- The characters, taking no column, that an Arabic letter joins across. -/
def joiningTransparentData : String :=
  String.intercalate " "
    ["AD AD 300 36F 483 489 591 5BD 5BF 5BF 5C1 5C2 5C4 5C5 5C7 5C7 610 61A 61C 61C 64B 65F 670 670",
    "6D6 6DC 6DF 6E4 6E7 6E8 6EA 6ED 70F 70F 711 711 730 74A 7A6 7B0 7EB 7F3 7FD 7FD 816 819",
    "81B 823 825 827 829 82D 859 85B 898 89F 8CA 8E1 8E3 902 93A 93A 93C 93C 941 948 94D 94D",
    "951 957 962 963 981 981 9BC 9BC 9C1 9C4 9CD 9CD 9E2 9E3 9FE 9FE A01 A02 A3C A3C A41 A42",
    "A47 A48 A4B A4D A51 A51 A70 A71 A75 A75 A81 A82 ABC ABC AC1 AC5 AC7 AC8 ACD ACD AE2 AE3",
    "AFA AFF B01 B01 B3C B3C B3F B3F B41 B44 B4D B4D B55 B56 B62 B63 B82 B82 BC0 BC0 BCD BCD",
    "C00 C00 C04 C04 C3C C3C C3E C40 C46 C48 C4A C4D C55 C56 C62 C63 C81 C81 CBC CBC CBF CBF",
    "CC6 CC6 CCC CCD CE2 CE3 D00 D01 D3B D3C D41 D44 D4D D4D D62 D63 D81 D81 DCA DCA DD2 DD4",
    "DD6 DD6 E31 E31 E34 E3A E47 E4E EB1 EB1 EB4 EBC EC8 ECE F18 F19 F35 F35 F37 F37 F39 F39",
    "F71 F7E F80 F84 F86 F87 F8D F97 F99 FBC FC6 FC6 102D 1030 1032 1037 1039 103A 103D 103E",
    "1058 1059 105E 1060 1071 1074 1082 1082 1085 1086 108D 108D 109D 109D 135D 135F 1712 1714",
    "1732 1733 1752 1753 1772 1773 17B4 17B5 17B7 17BD 17C6 17C6 17C9 17D3 17DD 17DD 180B 180D",
    "180F 180F 1885 1886 18A9 18A9 1920 1922 1927 1928 1932 1932 1939 193B 1A17 1A18 1A1B 1A1B",
    "1A56 1A56 1A58 1A5E 1A60 1A60 1A62 1A62 1A65 1A6C 1A73 1A7C 1A7F 1A7F 1AB0 1ACE 1B00 1B03",
    "1B34 1B34 1B36 1B3A 1B3C 1B3C 1B42 1B42 1B6B 1B73 1B80 1B81 1BA2 1BA5 1BA8 1BA9 1BAB 1BAD",
    "1BE6 1BE6 1BE8 1BE9 1BED 1BED 1BEF 1BF1 1C2C 1C33 1C36 1C37 1CD0 1CD2 1CD4 1CE0 1CE2 1CE8",
    "1CED 1CED 1CF4 1CF4 1CF8 1CF9 1DC0 1DFF 200B 200B 200E 200F 202A 202E 2060 2064 206A 206F",
    "20D0 20F0 2CEF 2CF1 2DE0 2DFF 302A 302D 3099 309A A66F A672 A674 A67D A69E A69F A6F0 A6F1",
    "A802 A802 A806 A806 A80B A80B A825 A826 A82C A82C A8C4 A8C5 A8E0 A8F1 A8FF A8FF A926 A92D",
    "A947 A951 A980 A982 A9B3 A9B3 A9B6 A9B9 A9BC A9BD A9E5 A9E5 AA29 AA2E AA31 AA32 AA35 AA36",
    "AA43 AA43 AA4C AA4C AA7C AA7C AAB0 AAB0 AAB2 AAB4 AAB7 AAB8 AABE AABF AAC1 AAC1 AAEC AAED",
    "AAF6 AAF6 ABE5 ABE5 ABE8 ABE8 ABED ABED FB1E FB1E FE00 FE0D FE20 FE2F FEFF FEFF 101FD 101FD",
    "102E0 102E0 10376 1037A 10A01 10A03 10A05 10A06 10A0C 10A0F 10A38 10A3A 10A3F 10A3F",
    "10AE5 10AE6 10D24 10D27 10EAB 10EAC 10EFD 10EFF 10F46 10F50 10F82 10F85 11001 11001",
    "11038 11046 11070 11070 11073 11074 1107F 11081 110B3 110B6 110B9 110BA 110C2 110C2",
    "11100 11102 11127 1112B 1112D 11134 11173 11173 11180 11181 111B6 111BE 111C9 111CC",
    "111CF 111CF 1122F 11231 11234 11234 11236 11237 1123E 1123E 11241 11241 112DF 112DF",
    "112E3 112EA 11300 11301 1133B 1133C 11340 11340 11366 1136C 11370 11374 11438 1143F",
    "11442 11444 11446 11446 1145E 1145E 114B3 114B8 114BA 114BA 114BF 114C0 114C2 114C3",
    "115B2 115B5 115BC 115BD 115BF 115C0 115DC 115DD 11633 1163A 1163D 1163D 1163F 11640",
    "116AB 116AB 116AD 116AD 116B0 116B5 116B7 116B7 1171D 1171F 11722 11725 11727 1172B",
    "1182F 11837 11839 1183A 1193B 1193C 1193E 1193E 11943 11943 119D4 119D7 119DA 119DB",
    "119E0 119E0 11A01 11A0A 11A33 11A38 11A3B 11A3E 11A47 11A47 11A51 11A56 11A59 11A5B",
    "11A8A 11A96 11A98 11A99 11C30 11C36 11C38 11C3D 11C3F 11C3F 11C92 11CA7 11CAA 11CB0",
    "11CB2 11CB3 11CB5 11CB6 11D31 11D36 11D3A 11D3A 11D3C 11D3D 11D3F 11D45 11D47 11D47",
    "11D90 11D91 11D95 11D95 11D97 11D97 11EF3 11EF4 11F00 11F01 11F36 11F3A 11F40 11F40",
    "11F42 11F42 13440 13440 13447 13455 16AF0 16AF4 16B30 16B36 16F4F 16F4F 16F8F 16F92",
    "16FE4 16FE4 1BC9D 1BC9E 1BCA0 1BCA3 1CF00 1CF2D 1CF30 1CF46 1D167 1D169 1D173 1D182",
    "1D185 1D18B 1D1AA 1D1AD 1D242 1D244 1DA00 1DA36 1DA3B 1DA6C 1DA75 1DA75 1DA84 1DA84",
    "1DA9B 1DA9F 1DAA1 1DAAF 1E000 1E006 1E008 1E018 1E01B 1E021 1E023 1E024 1E026 1E02A",
    "1E08F 1E08F 1E130 1E136 1E2AE 1E2AE 1E2EC 1E2EF 1E4EC 1E4EF 1E8D0 1E8D6 1E944 1E94A",
    "E0001 E0001 E0020 E007F E0100 E01EF"]

end ComponentSync.Text
