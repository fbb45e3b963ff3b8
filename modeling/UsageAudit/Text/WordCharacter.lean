import UsageAudit.Text.CharSet

/-!
# Characters of words

The characters of which the words of an index are made: letters, numbers and characters for private
use, as Unicode 6.1 has them. Accents that are written as characters of their own belong to the word
they stand in but start none.
-/

namespace UsageAudit.Text

/-- The letters, the numbers and the characters for private use of Unicode 6.1. -/
def wordCharacters : CharSet := ⟨[
    48, 58, 65, 91, 97, 123, 170, 171, 178, 180, 181, 182, 185, 187, 188, 191, 192, 215, 216,
    247, 248, 706, 710, 722, 736, 741, 748, 749, 750, 751, 880, 885, 886, 894, 895, 900, 902,
    903, 904, 1014, 1015, 1154, 1162, 1370, 1376, 1417, 1419, 1423, 1424, 1425, 1480, 1523,
    1525, 1536, 1541, 1542, 1564, 1566, 1568, 1611, 1632, 1642, 1646, 1648, 1649, 1748, 1749,
    1750, 1765, 1767, 1774, 1789, 1791, 1792, 1806, 1807, 1808, 1809, 1810, 1840, 1867, 1958,
    1969, 2027, 2036, 2038, 2042, 2070, 2074, 2075, 2084, 2085, 2088, 2089, 2094, 2096, 2111,
    2137, 2140, 2142, 2143, 2276, 2303, 2304, 2308, 2362, 2365, 2366, 2384, 2385, 2392, 2402,
    2406, 2416, 2417, 2433, 2436, 2492, 2493, 2494, 2501, 2503, 2505, 2507, 2510, 2519, 2520,
    2530, 2532, 2546, 2548, 2554, 2556, 2561, 2564, 2620, 2621, 2622, 2627, 2631, 2633, 2635,
    2638, 2641, 2642, 2672, 2674, 2677, 2678, 2689, 2692, 2748, 2749, 2750, 2758, 2759, 2762,
    2763, 2766, 2786, 2788, 2800, 2802, 2817, 2820, 2876, 2877, 2878, 2885, 2887, 2889, 2891,
    2894, 2902, 2904, 2914, 2916, 2928, 2929, 2946, 2947, 3006, 3011, 3014, 3017, 3018, 3022,
    3031, 3032, 3059, 3067, 3073, 3076, 3134, 3141, 3142, 3145, 3146, 3150, 3157, 3159, 3170,
    3172, 3199, 3200, 3202, 3204, 3260, 3261, 3262, 3269, 3270, 3273, 3274, 3278, 3285, 3287,
    3298, 3300, 3330, 3332, 3390, 3397, 3398, 3401, 3402, 3406, 3415, 3416, 3426, 3428, 3449,
    3450, 3458, 3460, 3530, 3531, 3535, 3541, 3542, 3543, 3544, 3552, 3570, 3573, 3633, 3634,
    3636, 3643, 3647, 3648, 3655, 3664, 3674, 3676, 3761, 3762, 3764, 3770, 3771, 3773, 3784,
    3790, 3841, 3872, 3892, 3904, 3953, 3976, 3981, 3992, 3993, 4029, 4030, 4045, 4046, 4059,
    4139, 4159, 4170, 4176, 4182, 4186, 4190, 4193, 4194, 4197, 4199, 4206, 4209, 4213, 4226,
    4238, 4239, 4240, 4250, 4256, 4347, 4348, 4957, 4969, 5008, 5018, 5120, 5121, 5741, 5743,
    5760, 5761, 5787, 5789, 5867, 5870, 5906, 5909, 5938, 5943, 5970, 5972, 6002, 6004, 6068,
    6103, 6104, 6108, 6109, 6110, 6144, 6159, 6313, 6314, 6432, 6444, 6448, 6460, 6464, 6465,
    6468, 6470, 6576, 6593, 6600, 6602, 6622, 6656, 6679, 6684, 6686, 6688, 6741, 6751, 6752,
    6781, 6783, 6784, 6816, 6823, 6824, 6830, 6912, 6917, 6964, 6981, 7002, 7037, 7040, 7043,
    7073, 7086, 7142, 7156, 7164, 7168, 7204, 7224, 7227, 7232, 7294, 7296, 7360, 7368, 7376,
    7401, 7405, 7406, 7410, 7413, 7616, 7655, 7676, 7680, 8125, 8126, 8127, 8130, 8141, 8144,
    8157, 8160, 8173, 8176, 8189, 8191, 8192, 8293, 8298, 8304, 8314, 8319, 8330, 8335, 8352,
    8378, 8400, 8433, 8448, 8450, 8451, 8455, 8456, 8458, 8468, 8469, 8470, 8473, 8478, 8484,
    8485, 8486, 8487, 8488, 8489, 8490, 8494, 8495, 8506, 8508, 8512, 8517, 8522, 8526, 8527,
    8528, 8592, 9204, 9216, 9255, 9280, 9291, 9372, 9450, 9472, 9984, 9985, 10102, 10132, 11085,
    11088, 11098, 11493, 11499, 11503, 11506, 11513, 11517, 11518, 11520, 11632, 11633, 11647,
    11648, 11744, 11823, 11824, 11836, 11904, 11930, 11931, 12020, 12032, 12246, 12272, 12284,
    12288, 12293, 12296, 12321, 12330, 12337, 12342, 12344, 12349, 12352, 12441, 12445, 12448,
    12449, 12539, 12540, 12688, 12690, 12694, 12704, 12736, 12772, 12800, 12831, 12842, 12872,
    12880, 12881, 12896, 12928, 12938, 12977, 12992, 13055, 13056, 13312, 19904, 19968, 42128,
    42183, 42238, 42240, 42509, 42512, 42607, 42623, 42655, 42656, 42736, 42744, 42752, 42775,
    42784, 42786, 42889, 42891, 43010, 43011, 43014, 43015, 43019, 43020, 43043, 43052, 43062,
    43066, 43124, 43128, 43136, 43138, 43188, 43205, 43214, 43216, 43232, 43250, 43256, 43259,
    43302, 43312, 43335, 43348, 43359, 43360, 43392, 43396, 43443, 43470, 43486, 43488, 43561,
    43575, 43587, 43588, 43596, 43598, 43612, 43616, 43639, 43642, 43643, 43644, 43696, 43697,
    43698, 43701, 43703, 43705, 43710, 43712, 43713, 43714, 43742, 43744, 43755, 43762, 43765,
    43767, 44003, 44014, 64286, 64287, 64297, 64298, 64434, 64450, 64830, 64832, 65020, 65022,
    65024, 65050, 65056, 65063, 65072, 65107, 65108, 65127, 65128, 65132, 65279, 65280, 65281,
    65296, 65306, 65313, 65339, 65345, 65371, 65382, 65504, 65511, 65512, 65519, 65529, 65536,
    65792, 65795, 65847, 65856, 65913, 65930, 65936, 65948, 66000, 66046, 66463, 66464, 66512,
    66513, 67671, 67672, 67871, 67872, 67903, 67904, 68097, 68100, 68101, 68103, 68108, 68112,
    68152, 68155, 68159, 68160, 68176, 68185, 68223, 68224, 68409, 68416, 69632, 69635, 69688,
    69710, 69760, 69763, 69808, 69826, 69888, 69891, 69927, 69941, 69952, 69956, 70016, 70019,
    70067, 70081, 70085, 70089, 71339, 71352, 74864, 74868, 94033, 94079, 94095, 94099, 118784,
    119030, 119040, 119079, 119081, 119262, 119296, 119366, 119552, 119639, 120513, 120514,
    120539, 120540, 120571, 120572, 120597, 120598, 120629, 120630, 120655, 120656, 120687,
    120688, 120713, 120714, 120745, 120746, 120771, 120772, 126704, 126706, 126976, 127020,
    127024, 127124, 127136, 127151, 127153, 127167, 127169, 127184, 127185, 127200, 127248,
    127279, 127280, 127340, 127344, 127387, 127462, 127491, 127504, 127547, 127552, 127561,
    127568, 127570, 127744, 127777, 127792, 127798, 127799, 127869, 127872, 127892, 127904,
    127941, 127942, 127947, 127968, 127985, 128000, 128063, 128064, 128065, 128066, 128248,
    128249, 128253, 128256, 128318, 128320, 128324, 128336, 128360, 128507, 128577, 128581,
    128592, 128640, 128710, 128768, 128884, 917505, 917506, 917536, 917632, 917760, 918000,
    1114112]⟩

/-- Whether words are made of the character. -/
def isWordCharacter (c : Char) : Bool :=
  wordCharacters.contains c

/-- The accents that are characters of their own. -/
def accents : CharSet := ⟨[
    768, 773, 774, 781, 783, 784, 785, 786, 795, 796, 803, 809, 813, 815, 816, 818]⟩

/-- Whether the character is an accent. -/
def isAccent (c : Char) : Bool :=
  accents.contains c

end UsageAudit.Text
