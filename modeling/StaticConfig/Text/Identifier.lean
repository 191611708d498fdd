import StaticConfig.Text.Ranges

/-!
# Characters of identifiers

A name starts with a letter, `$` or `_` and goes on with these, digits and combining marks. The
ASCII part is a rule, the rest are the Unicode properties `ID_Start` and `ID_Continue`.
-/

namespace StaticConfig

/-- The characters beyond ASCII with the property `ID_Start`. -/
def letters : CodeRanges := .ofLines [
    "00aa 00b5 00ba 00c0-00d6 00d8-00f6 00f8-02c1 02c6-02d1 02e0-02e4 02ec 02ee 0370-0374 0376-0377",
    "037a-037d 037f 0386 0388-038a 038c 038e-03a1 03a3-03f5 03f7-0481 048a-052f 0531-0556 0559",
    "0560-0588 05d0-05ea 05ef-05f2 0620-064a 066e-066f 0671-06d3 06d5 06e5-06e6 06ee-06ef 06fa-06fc",
    "06ff 0710 0712-072f 074d-07a5 07b1 07ca-07ea 07f4-07f5 07fa 0800-0815 081a 0824 0828 0840-0858",
    "0860-086a 0870-0887 0889-088f 08a0-08c9 0904-0939 093d 0950 0958-0961 0971-0980 0985-098c",
    "098f-0990 0993-09a8 09aa-09b0 09b2 09b6-09b9 09bd 09ce 09dc-09dd 09df-09e1 09f0-09f1 09fc",
    "0a05-0a0a 0a0f-0a10 0a13-0a28 0a2a-0a30 0a32-0a33 0a35-0a36 0a38-0a39 0a59-0a5c 0a5e 0a72-0a74",
    "0a85-0a8d 0a8f-0a91 0a93-0aa8 0aaa-0ab0 0ab2-0ab3 0ab5-0ab9 0abd 0ad0 0ae0-0ae1 0af9 0b05-0b0c",
    "0b0f-0b10 0b13-0b28 0b2a-0b30 0b32-0b33 0b35-0b39 0b3d 0b5c-0b5d 0b5f-0b61 0b71 0b83 0b85-0b8a",
    "0b8e-0b90 0b92-0b95 0b99-0b9a 0b9c 0b9e-0b9f 0ba3-0ba4 0ba8-0baa 0bae-0bb9 0bd0 0c05-0c0c",
    "0c0e-0c10 0c12-0c28 0c2a-0c39 0c3d 0c58-0c5a 0c5c-0c5d 0c60-0c61 0c80 0c85-0c8c 0c8e-0c90",
    "0c92-0ca8 0caa-0cb3 0cb5-0cb9 0cbd 0cdc-0cde 0ce0-0ce1 0cf1-0cf2 0d04-0d0c 0d0e-0d10 0d12-0d3a",
    "0d3d 0d4e 0d54-0d56 0d5f-0d61 0d7a-0d7f 0d85-0d96 0d9a-0db1 0db3-0dbb 0dbd 0dc0-0dc6 0e01-0e30",
    "0e32-0e33 0e40-0e46 0e81-0e82 0e84 0e86-0e8a 0e8c-0ea3 0ea5 0ea7-0eb0 0eb2-0eb3 0ebd 0ec0-0ec4",
    "0ec6 0edc-0edf 0f00 0f40-0f47 0f49-0f6c 0f88-0f8c 1000-102a 103f 1050-1055 105a-105d 1061",
    "1065-1066 106e-1070 1075-1081 108e 10a0-10c5 10c7 10cd 10d0-10fa 10fc-1248 124a-124d 1250-1256",
    "1258 125a-125d 1260-1288 128a-128d 1290-12b0 12b2-12b5 12b8-12be 12c0 12c2-12c5 12c8-12d6",
    "12d8-1310 1312-1315 1318-135a 1380-138f 13a0-13f5 13f8-13fd 1401-166c 166f-167f 1681-169a",
    "16a0-16ea 16ee-16f8 1700-1711 171f-1731 1740-1751 1760-176c 176e-1770 1780-17b3 17d7 17dc",
    "1820-1878 1880-18a8 18aa 18b0-18f5 1900-191e 1950-196d 1970-1974 1980-19ab 19b0-19c9 1a00-1a16",
    "1a20-1a54 1aa7 1b05-1b33 1b45-1b4c 1b83-1ba0 1bae-1baf 1bba-1be5 1c00-1c23 1c4d-1c4f 1c5a-1c7d",
    "1c80-1c8a 1c90-1cba 1cbd-1cbf 1ce9-1cec 1cee-1cf3 1cf5-1cf6 1cfa 1d00-1dbf 1e00-1f15 1f18-1f1d",
    "1f20-1f45 1f48-1f4d 1f50-1f57 1f59 1f5b 1f5d 1f5f-1f7d 1f80-1fb4 1fb6-1fbc 1fbe 1fc2-1fc4",
    "1fc6-1fcc 1fd0-1fd3 1fd6-1fdb 1fe0-1fec 1ff2-1ff4 1ff6-1ffc 2071 207f 2090-209c 2102 2107",
    "210a-2113 2115 2118-211d 2124 2126 2128 212a-2139 213c-213f 2145-2149 214e 2160-2188 2c00-2ce4",
    "2ceb-2cee 2cf2-2cf3 2d00-2d25 2d27 2d2d 2d30-2d67 2d6f 2d80-2d96 2da0-2da6 2da8-2dae 2db0-2db6",
    "2db8-2dbe 2dc0-2dc6 2dc8-2dce 2dd0-2dd6 2dd8-2dde 3005-3007 3021-3029 3031-3035 3038-303c",
    "3041-3096 309b-309f 30a1-30fa 30fc-30ff 3105-312f 3131-318e 31a0-31bf 31f0-31ff 3400-4dbf",
    "4e00-a48c a4d0-a4fd a500-a60c a610-a61f a62a-a62b a640-a66e a67f-a69d a6a0-a6ef a717-a71f",
    "a722-a788 a78b-a7dc a7f1-a801 a803-a805 a807-a80a a80c-a822 a840-a873 a882-a8b3 a8f2-a8f7 a8fb",
    "a8fd-a8fe a90a-a925 a930-a946 a960-a97c a984-a9b2 a9cf a9e0-a9e4 a9e6-a9ef a9fa-a9fe aa00-aa28",
    "aa40-aa42 aa44-aa4b aa60-aa76 aa7a aa7e-aaaf aab1 aab5-aab6 aab9-aabd aac0 aac2 aadb-aadd",
    "aae0-aaea aaf2-aaf4 ab01-ab06 ab09-ab0e ab11-ab16 ab20-ab26 ab28-ab2e ab30-ab5a ab5c-ab69",
    "ab70-abe2 ac00-d7a3 d7b0-d7c6 d7cb-d7fb f900-fa6d fa70-fad9 fb00-fb06 fb13-fb17 fb1d fb1f-fb28",
    "fb2a-fb36 fb38-fb3c fb3e fb40-fb41 fb43-fb44 fb46-fbb1 fbd3-fd3d fd50-fd8f fd92-fdc7 fdf0-fdfb",
    "fe70-fe74 fe76-fefc ff21-ff3a ff41-ff5a ff66-ffbe ffc2-ffc7 ffca-ffcf ffd2-ffd7 ffda-ffdc",
    "10000-1000b 1000d-10026 10028-1003a 1003c-1003d 1003f-1004d 10050-1005d 10080-100fa",
    "10140-10174 10280-1029c 102a0-102d0 10300-1031f 1032d-1034a 10350-10375 10380-1039d",
    "103a0-103c3 103c8-103cf 103d1-103d5 10400-1049d 104b0-104d3 104d8-104fb 10500-10527",
    "10530-10563 10570-1057a 1057c-1058a 1058c-10592 10594-10595 10597-105a1 105a3-105b1",
    "105b3-105b9 105bb-105bc 105c0-105f3 10600-10736 10740-10755 10760-10767 10780-10785",
    "10787-107b0 107b2-107ba 10800-10805 10808 1080a-10835 10837-10838 1083c 1083f-10855",
    "10860-10876 10880-1089e 108e0-108f2 108f4-108f5 10900-10915 10920-10939 10940-10959",
    "10980-109b7 109be-109bf 10a00 10a10-10a13 10a15-10a17 10a19-10a35 10a60-10a7c 10a80-10a9c",
    "10ac0-10ac7 10ac9-10ae4 10b00-10b35 10b40-10b55 10b60-10b72 10b80-10b91 10c00-10c48",
    "10c80-10cb2 10cc0-10cf2 10d00-10d23 10d4a-10d65 10d6f-10d85 10e80-10ea9 10eb0-10eb1",
    "10ec2-10ec7 10f00-10f1c 10f27 10f30-10f45 10f70-10f81 10fb0-10fc4 10fe0-10ff6 11003-11037",
    "11071-11072 11075 11083-110af 110d0-110e8 11103-11126 11144 11147 11150-11172 11176",
    "11183-111b2 111c1-111c4 111da 111dc 11200-11211 11213-1122b 1123f-11240 11280-11286 11288",
    "1128a-1128d 1128f-1129d 1129f-112a8 112b0-112de 11305-1130c 1130f-11310 11313-11328",
    "1132a-11330 11332-11333 11335-11339 1133d 11350 1135d-11361 11380-11389 1138b 1138e",
    "11390-113b5 113b7 113d1 113d3 11400-11434 11447-1144a 1145f-11461 11480-114af 114c4-114c5",
    "114c7 11580-115ae 115d8-115db 11600-1162f 11644 11680-116aa 116b8 11700-1171a 11740-11746",
    "11800-1182b 118a0-118df 118ff-11906 11909 1190c-11913 11915-11916 11918-1192f 1193f 11941",
    "119a0-119a7 119aa-119d0 119e1 119e3 11a00 11a0b-11a32 11a3a 11a50 11a5c-11a89 11a9d",
    "11ab0-11af8 11bc0-11be0 11c00-11c08 11c0a-11c2e 11c40 11c72-11c8f 11d00-11d06 11d08-11d09",
    "11d0b-11d30 11d46 11d60-11d65 11d67-11d68 11d6a-11d89 11d98 11db0-11ddb 11ee0-11ef2 11f02",
    "11f04-11f10 11f12-11f33 11fb0 12000-12399 12400-1246e 12480-12543 12f90-12ff0 13000-1342f",
    "13441-13446 13460-143fa 14400-14646 16100-1611d 16800-16a38 16a40-16a5e 16a70-16abe",
    "16ad0-16aed 16b00-16b2f 16b40-16b43 16b63-16b77 16b7d-16b8f 16d40-16d6c 16e40-16e7f",
    "16ea0-16eb8 16ebb-16ed3 16f00-16f4a 16f50 16f93-16f9f 16fe0-16fe1 16fe3 16ff2-16ff6",
    "17000-18cd5 18cff-18d1e 18d80-18df2 1aff0-1aff3 1aff5-1affb 1affd-1affe 1b000-1b122 1b132",
    "1b150-1b152 1b155 1b164-1b167 1b170-1b2fb 1bc00-1bc6a 1bc70-1bc7c 1bc80-1bc88 1bc90-1bc99",
    "1d400-1d454 1d456-1d49c 1d49e-1d49f 1d4a2 1d4a5-1d4a6 1d4a9-1d4ac 1d4ae-1d4b9 1d4bb",
    "1d4bd-1d4c3 1d4c5-1d505 1d507-1d50a 1d50d-1d514 1d516-1d51c 1d51e-1d539 1d53b-1d53e",
    "1d540-1d544 1d546 1d54a-1d550 1d552-1d6a5 1d6a8-1d6c0 1d6c2-1d6da 1d6dc-1d6fa 1d6fc-1d714",
    "1d716-1d734 1d736-1d74e 1d750-1d76e 1d770-1d788 1d78a-1d7a8 1d7aa-1d7c2 1d7c4-1d7cb",
    "1df00-1df1e 1df25-1df2a 1e030-1e06d 1e100-1e12c 1e137-1e13d 1e14e 1e290-1e2ad 1e2c0-1e2eb",
    "1e4d0-1e4eb 1e5d0-1e5ed 1e5f0 1e6c0-1e6de 1e6e0-1e6e2 1e6e4-1e6e5 1e6e7-1e6ed 1e6f0-1e6f4",
    "1e6fe-1e6ff 1e7e0-1e7e6 1e7e8-1e7eb 1e7ed-1e7ee 1e7f0-1e7fe 1e800-1e8c4 1e900-1e943 1e94b",
    "1ee00-1ee03 1ee05-1ee1f 1ee21-1ee22 1ee24 1ee27 1ee29-1ee32 1ee34-1ee37 1ee39 1ee3b 1ee42",
    "1ee47 1ee49 1ee4b 1ee4d-1ee4f 1ee51-1ee52 1ee54 1ee57 1ee59 1ee5b 1ee5d 1ee5f 1ee61-1ee62",
    "1ee64 1ee67-1ee6a 1ee6c-1ee72 1ee74-1ee77 1ee79-1ee7c 1ee7e 1ee80-1ee89 1ee8b-1ee9b",
    "1eea1-1eea3 1eea5-1eea9 1eeab-1eebb 20000-2a6df 2a700-2b81d 2b820-2cead 2ceb0-2ebe0",
    "2ebf0-2ee5d 2f800-2fa1d 30000-3134a 31350-33479"]

/-- The characters beyond ASCII with the property `ID_Continue` and without `ID_Start`. -/
def marks : CodeRanges := .ofLines [
    "00b7 0300-036f 0387 0483-0487 0591-05bd 05bf 05c1-05c2 05c4-05c5 05c7 0610-061a 064b-0669 0670",
    "06d6-06dc 06df-06e4 06e7-06e8 06ea-06ed 06f0-06f9 0711 0730-074a 07a6-07b0 07c0-07c9 07eb-07f3",
    "07fd 0816-0819 081b-0823 0825-0827 0829-082d 0859-085b 0897-089f 08ca-08e1 08e3-0903 093a-093c",
    "093e-094f 0951-0957 0962-0963 0966-096f 0981-0983 09bc 09be-09c4 09c7-09c8 09cb-09cd 09d7",
    "09e2-09e3 09e6-09ef 09fe 0a01-0a03 0a3c 0a3e-0a42 0a47-0a48 0a4b-0a4d 0a51 0a66-0a71 0a75",
    "0a81-0a83 0abc 0abe-0ac5 0ac7-0ac9 0acb-0acd 0ae2-0ae3 0ae6-0aef 0afa-0aff 0b01-0b03 0b3c",
    "0b3e-0b44 0b47-0b48 0b4b-0b4d 0b55-0b57 0b62-0b63 0b66-0b6f 0b82 0bbe-0bc2 0bc6-0bc8 0bca-0bcd",
    "0bd7 0be6-0bef 0c00-0c04 0c3c 0c3e-0c44 0c46-0c48 0c4a-0c4d 0c55-0c56 0c62-0c63 0c66-0c6f",
    "0c81-0c83 0cbc 0cbe-0cc4 0cc6-0cc8 0cca-0ccd 0cd5-0cd6 0ce2-0ce3 0ce6-0cef 0cf3 0d00-0d03",
    "0d3b-0d3c 0d3e-0d44 0d46-0d48 0d4a-0d4d 0d57 0d62-0d63 0d66-0d6f 0d81-0d83 0dca 0dcf-0dd4 0dd6",
    "0dd8-0ddf 0de6-0def 0df2-0df3 0e31 0e34-0e3a 0e47-0e4e 0e50-0e59 0eb1 0eb4-0ebc 0ec8-0ece",
    "0ed0-0ed9 0f18-0f19 0f20-0f29 0f35 0f37 0f39 0f3e-0f3f 0f71-0f84 0f86-0f87 0f8d-0f97 0f99-0fbc",
    "0fc6 102b-103e 1040-1049 1056-1059 105e-1060 1062-1064 1067-106d 1071-1074 1082-108d 108f-109d",
    "135d-135f 1369-1371 1712-1715 1732-1734 1752-1753 1772-1773 17b4-17d3 17dd 17e0-17e9 180b-180d",
    "180f-1819 18a9 1920-192b 1930-193b 1946-194f 19d0-19da 1a17-1a1b 1a55-1a5e 1a60-1a7c 1a7f-1a89",
    "1a90-1a99 1ab0-1abd 1abf-1add 1ae0-1aeb 1b00-1b04 1b34-1b44 1b50-1b59 1b6b-1b73 1b80-1b82",
    "1ba1-1bad 1bb0-1bb9 1be6-1bf3 1c24-1c37 1c40-1c49 1c50-1c59 1cd0-1cd2 1cd4-1ce8 1ced 1cf4",
    "1cf7-1cf9 1dc0-1dff 200c-200d 203f-2040 2054 20d0-20dc 20e1 20e5-20f0 2cef-2cf1 2d7f 2de0-2dff",
    "302a-302f 3099-309a 30fb a620-a629 a66f a674-a67d a69e-a69f a6f0-a6f1 a802 a806 a80b a823-a827",
    "a82c a880-a881 a8b4-a8c5 a8d0-a8d9 a8e0-a8f1 a8ff-a909 a926-a92d a947-a953 a980-a983 a9b3-a9c0",
    "a9d0-a9d9 a9e5 a9f0-a9f9 aa29-aa36 aa43 aa4c-aa4d aa50-aa59 aa7b-aa7d aab0 aab2-aab4 aab7-aab8",
    "aabe-aabf aac1 aaeb-aaef aaf5-aaf6 abe3-abea abec-abed abf0-abf9 fb1e fe00-fe0f fe20-fe2f",
    "fe33-fe34 fe4d-fe4f ff10-ff19 ff3f ff65 101fd 102e0 10376-1037a 104a0-104a9 10a01-10a03",
    "10a05-10a06 10a0c-10a0f 10a38-10a3a 10a3f 10ae5-10ae6 10d24-10d27 10d30-10d39 10d40-10d49",
    "10d69-10d6d 10eab-10eac 10efa-10eff 10f46-10f50 10f82-10f85 11000-11002 11038-11046",
    "11066-11070 11073-11074 1107f-11082 110b0-110ba 110c2 110f0-110f9 11100-11102 11127-11134",
    "11136-1113f 11145-11146 11173 11180-11182 111b3-111c0 111c9-111cc 111ce-111d9 1122c-11237",
    "1123e 11241 112df-112ea 112f0-112f9 11300-11303 1133b-1133c 1133e-11344 11347-11348",
    "1134b-1134d 11357 11362-11363 11366-1136c 11370-11374 113b8-113c0 113c2 113c5 113c7-113ca",
    "113cc-113d0 113d2 113e1-113e2 11435-11446 11450-11459 1145e 114b0-114c3 114d0-114d9",
    "115af-115b5 115b8-115c0 115dc-115dd 11630-11640 11650-11659 116ab-116b7 116c0-116c9",
    "116d0-116e3 1171d-1172b 11730-11739 1182c-1183a 118e0-118e9 11930-11935 11937-11938",
    "1193b-1193e 11940 11942-11943 11950-11959 119d1-119d7 119da-119e0 119e4 11a01-11a0a",
    "11a33-11a39 11a3b-11a3e 11a47 11a51-11a5b 11a8a-11a99 11b60-11b67 11bf0-11bf9 11c2f-11c36",
    "11c38-11c3f 11c50-11c59 11c92-11ca7 11ca9-11cb6 11d31-11d36 11d3a 11d3c-11d3d 11d3f-11d45",
    "11d47 11d50-11d59 11d8a-11d8e 11d90-11d91 11d93-11d97 11da0-11da9 11de0-11de9 11ef3-11ef6",
    "11f00-11f01 11f03 11f34-11f3a 11f3e-11f42 11f50-11f5a 13440 13447-13455 1611e-16139",
    "16a60-16a69 16ac0-16ac9 16af0-16af4 16b30-16b36 16b50-16b59 16d70-16d79 16f4f 16f51-16f87",
    "16f8f-16f92 16fe4 16ff0-16ff1 1bc9d-1bc9e 1ccf0-1ccf9 1cf00-1cf2d 1cf30-1cf46 1d165-1d169",
    "1d16d-1d172 1d17b-1d182 1d185-1d18b 1d1aa-1d1ad 1d242-1d244 1d7ce-1d7ff 1da00-1da36",
    "1da3b-1da6c 1da75 1da84 1da9b-1da9f 1daa1-1daaf 1e000-1e006 1e008-1e018 1e01b-1e021",
    "1e023-1e024 1e026-1e02a 1e08f 1e130-1e136 1e140-1e149 1e2ae 1e2ec-1e2f9 1e4ec-1e4f9",
    "1e5ee-1e5ef 1e5f1-1e5fa 1e6e3 1e6e6 1e6ee-1e6ef 1e6f5 1e8d0-1e8d6 1e944-1e94a 1e950-1e959",
    "1fbf0-1fbf9 e0100-e01ef"]

/-- Whether a name may start with the character. -/
def isIdentifierStart (c : Char) : Bool :=
  if c.toNat < 128 then c.isAlpha || c == '$' || c == '_' else letters.contains c

/-- Whether a name may go on with the character; joiners may stand inside names. -/
def isIdentifierPart (c : Char) : Bool :=
  if c.toNat < 128 then c.isAlphanum || c == '$' || c == '_'
  else letters.contains c || marks.contains c || c.toNat == 0x200c || c.toNat == 0x200d

end StaticConfig
