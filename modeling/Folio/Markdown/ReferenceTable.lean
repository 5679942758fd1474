/-! The named character references of HTML: names and the one or two characters they stand for.
-/

namespace Folio.Markdown

/-- References from `AElig` to `CupCap`; the second code point is zero where there is only one. -/
def referencesUpperAToC : Array (String × Nat × Nat) :=
  #[
    ("AElig", 0xc6, 0x0), ("AMP", 0x26, 0x0), ("Aacute", 0xc1, 0x0), ("Abreve", 0x102, 0x0),
    ("Acirc", 0xc2, 0x0), ("Acy", 0x410, 0x0), ("Afr", 0x1d504, 0x0), ("Agrave", 0xc0, 0x0),
    ("Alpha", 0x391, 0x0), ("Amacr", 0x100, 0x0), ("And", 0x2a53, 0x0), ("Aogon", 0x104, 0x0),
    ("Aopf", 0x1d538, 0x0), ("ApplyFunction", 0x2061, 0x0), ("Aring", 0xc5, 0x0),
    ("Ascr", 0x1d49c, 0x0), ("Assign", 0x2254, 0x0), ("Atilde", 0xc3, 0x0), ("Auml", 0xc4, 0x0),
    ("Backslash", 0x2216, 0x0), ("Barv", 0x2ae7, 0x0), ("Barwed", 0x2306, 0x0),
    ("Bcy", 0x411, 0x0), ("Because", 0x2235, 0x0), ("Bernoullis", 0x212c, 0x0),
    ("Beta", 0x392, 0x0), ("Bfr", 0x1d505, 0x0), ("Bopf", 0x1d539, 0x0), ("Breve", 0x2d8, 0x0),
    ("Bscr", 0x212c, 0x0), ("Bumpeq", 0x224e, 0x0), ("CHcy", 0x427, 0x0), ("COPY", 0xa9, 0x0),
    ("Cacute", 0x106, 0x0), ("Cap", 0x22d2, 0x0), ("CapitalDifferentialD", 0x2145, 0x0),
    ("Cayleys", 0x212d, 0x0), ("Ccaron", 0x10c, 0x0), ("Ccedil", 0xc7, 0x0),
    ("Ccirc", 0x108, 0x0), ("Cconint", 0x2230, 0x0), ("Cdot", 0x10a, 0x0),
    ("Cedilla", 0xb8, 0x0), ("CenterDot", 0xb7, 0x0), ("Cfr", 0x212d, 0x0), ("Chi", 0x3a7, 0x0),
    ("CircleDot", 0x2299, 0x0), ("CircleMinus", 0x2296, 0x0), ("CirclePlus", 0x2295, 0x0),
    ("CircleTimes", 0x2297, 0x0), ("ClockwiseContourIntegral", 0x2232, 0x0),
    ("CloseCurlyDoubleQuote", 0x201d, 0x0), ("CloseCurlyQuote", 0x2019, 0x0),
    ("Colon", 0x2237, 0x0), ("Colone", 0x2a74, 0x0), ("Congruent", 0x2261, 0x0),
    ("Conint", 0x222f, 0x0), ("ContourIntegral", 0x222e, 0x0), ("Copf", 0x2102, 0x0),
    ("Coproduct", 0x2210, 0x0), ("CounterClockwiseContourIntegral", 0x2233, 0x0),
    ("Cross", 0x2a2f, 0x0), ("Cscr", 0x1d49e, 0x0), ("Cup", 0x22d3, 0x0), ("CupCap", 0x224d, 0x0)
  ]

/-- References from `DD` to `HumpEqual`; the second code point is zero where there is only one. -/
def referencesUpperDToH : Array (String × Nat × Nat) :=
  #[
    ("DD", 0x2145, 0x0), ("DDotrahd", 0x2911, 0x0), ("DJcy", 0x402, 0x0), ("DScy", 0x405, 0x0),
    ("DZcy", 0x40f, 0x0), ("Dagger", 0x2021, 0x0), ("Darr", 0x21a1, 0x0), ("Dashv", 0x2ae4, 0x0),
    ("Dcaron", 0x10e, 0x0), ("Dcy", 0x414, 0x0), ("Del", 0x2207, 0x0), ("Delta", 0x394, 0x0),
    ("Dfr", 0x1d507, 0x0), ("DiacriticalAcute", 0xb4, 0x0), ("DiacriticalDot", 0x2d9, 0x0),
    ("DiacriticalDoubleAcute", 0x2dd, 0x0), ("DiacriticalGrave", 0x60, 0x0),
    ("DiacriticalTilde", 0x2dc, 0x0), ("Diamond", 0x22c4, 0x0), ("DifferentialD", 0x2146, 0x0),
    ("Dopf", 0x1d53b, 0x0), ("Dot", 0xa8, 0x0), ("DotDot", 0x20dc, 0x0),
    ("DotEqual", 0x2250, 0x0), ("DoubleContourIntegral", 0x222f, 0x0), ("DoubleDot", 0xa8, 0x0),
    ("DoubleDownArrow", 0x21d3, 0x0), ("DoubleLeftArrow", 0x21d0, 0x0),
    ("DoubleLeftRightArrow", 0x21d4, 0x0), ("DoubleLeftTee", 0x2ae4, 0x0),
    ("DoubleLongLeftArrow", 0x27f8, 0x0), ("DoubleLongLeftRightArrow", 0x27fa, 0x0),
    ("DoubleLongRightArrow", 0x27f9, 0x0), ("DoubleRightArrow", 0x21d2, 0x0),
    ("DoubleRightTee", 0x22a8, 0x0), ("DoubleUpArrow", 0x21d1, 0x0),
    ("DoubleUpDownArrow", 0x21d5, 0x0), ("DoubleVerticalBar", 0x2225, 0x0),
    ("DownArrow", 0x2193, 0x0), ("DownArrowBar", 0x2913, 0x0), ("DownArrowUpArrow", 0x21f5, 0x0),
    ("DownBreve", 0x311, 0x0), ("DownLeftRightVector", 0x2950, 0x0),
    ("DownLeftTeeVector", 0x295e, 0x0), ("DownLeftVector", 0x21bd, 0x0),
    ("DownLeftVectorBar", 0x2956, 0x0), ("DownRightTeeVector", 0x295f, 0x0),
    ("DownRightVector", 0x21c1, 0x0), ("DownRightVectorBar", 0x2957, 0x0),
    ("DownTee", 0x22a4, 0x0), ("DownTeeArrow", 0x21a7, 0x0), ("Downarrow", 0x21d3, 0x0),
    ("Dscr", 0x1d49f, 0x0), ("Dstrok", 0x110, 0x0), ("ENG", 0x14a, 0x0), ("ETH", 0xd0, 0x0),
    ("Eacute", 0xc9, 0x0), ("Ecaron", 0x11a, 0x0), ("Ecirc", 0xca, 0x0), ("Ecy", 0x42d, 0x0),
    ("Edot", 0x116, 0x0), ("Efr", 0x1d508, 0x0), ("Egrave", 0xc8, 0x0), ("Element", 0x2208, 0x0),
    ("Emacr", 0x112, 0x0), ("EmptySmallSquare", 0x25fb, 0x0),
    ("EmptyVerySmallSquare", 0x25ab, 0x0), ("Eogon", 0x118, 0x0), ("Eopf", 0x1d53c, 0x0),
    ("Epsilon", 0x395, 0x0), ("Equal", 0x2a75, 0x0), ("EqualTilde", 0x2242, 0x0),
    ("Equilibrium", 0x21cc, 0x0), ("Escr", 0x2130, 0x0), ("Esim", 0x2a73, 0x0),
    ("Eta", 0x397, 0x0), ("Euml", 0xcb, 0x0), ("Exists", 0x2203, 0x0),
    ("ExponentialE", 0x2147, 0x0), ("Fcy", 0x424, 0x0), ("Ffr", 0x1d509, 0x0),
    ("FilledSmallSquare", 0x25fc, 0x0), ("FilledVerySmallSquare", 0x25aa, 0x0),
    ("Fopf", 0x1d53d, 0x0), ("ForAll", 0x2200, 0x0), ("Fouriertrf", 0x2131, 0x0),
    ("Fscr", 0x2131, 0x0), ("GJcy", 0x403, 0x0), ("GT", 0x3e, 0x0), ("Gamma", 0x393, 0x0),
    ("Gammad", 0x3dc, 0x0), ("Gbreve", 0x11e, 0x0), ("Gcedil", 0x122, 0x0),
    ("Gcirc", 0x11c, 0x0), ("Gcy", 0x413, 0x0), ("Gdot", 0x120, 0x0), ("Gfr", 0x1d50a, 0x0),
    ("Gg", 0x22d9, 0x0), ("Gopf", 0x1d53e, 0x0), ("GreaterEqual", 0x2265, 0x0),
    ("GreaterEqualLess", 0x22db, 0x0), ("GreaterFullEqual", 0x2267, 0x0),
    ("GreaterGreater", 0x2aa2, 0x0), ("GreaterLess", 0x2277, 0x0),
    ("GreaterSlantEqual", 0x2a7e, 0x0), ("GreaterTilde", 0x2273, 0x0), ("Gscr", 0x1d4a2, 0x0),
    ("Gt", 0x226b, 0x0), ("HARDcy", 0x42a, 0x0), ("Hacek", 0x2c7, 0x0), ("Hat", 0x5e, 0x0),
    ("Hcirc", 0x124, 0x0), ("Hfr", 0x210c, 0x0), ("HilbertSpace", 0x210b, 0x0),
    ("Hopf", 0x210d, 0x0), ("HorizontalLine", 0x2500, 0x0), ("Hscr", 0x210b, 0x0),
    ("Hstrok", 0x126, 0x0), ("HumpDownHump", 0x224e, 0x0), ("HumpEqual", 0x224f, 0x0)
  ]

/-- References from `IEcy` to `Mu`; the second code point is zero where there is only one. -/
def referencesUpperIToM : Array (String × Nat × Nat) :=
  #[
    ("IEcy", 0x415, 0x0), ("IJlig", 0x132, 0x0), ("IOcy", 0x401, 0x0), ("Iacute", 0xcd, 0x0),
    ("Icirc", 0xce, 0x0), ("Icy", 0x418, 0x0), ("Idot", 0x130, 0x0), ("Ifr", 0x2111, 0x0),
    ("Igrave", 0xcc, 0x0), ("Im", 0x2111, 0x0), ("Imacr", 0x12a, 0x0),
    ("ImaginaryI", 0x2148, 0x0), ("Implies", 0x21d2, 0x0), ("Int", 0x222c, 0x0),
    ("Integral", 0x222b, 0x0), ("Intersection", 0x22c2, 0x0), ("InvisibleComma", 0x2063, 0x0),
    ("InvisibleTimes", 0x2062, 0x0), ("Iogon", 0x12e, 0x0), ("Iopf", 0x1d540, 0x0),
    ("Iota", 0x399, 0x0), ("Iscr", 0x2110, 0x0), ("Itilde", 0x128, 0x0), ("Iukcy", 0x406, 0x0),
    ("Iuml", 0xcf, 0x0), ("Jcirc", 0x134, 0x0), ("Jcy", 0x419, 0x0), ("Jfr", 0x1d50d, 0x0),
    ("Jopf", 0x1d541, 0x0), ("Jscr", 0x1d4a5, 0x0), ("Jsercy", 0x408, 0x0),
    ("Jukcy", 0x404, 0x0), ("KHcy", 0x425, 0x0), ("KJcy", 0x40c, 0x0), ("Kappa", 0x39a, 0x0),
    ("Kcedil", 0x136, 0x0), ("Kcy", 0x41a, 0x0), ("Kfr", 0x1d50e, 0x0), ("Kopf", 0x1d542, 0x0),
    ("Kscr", 0x1d4a6, 0x0), ("LJcy", 0x409, 0x0), ("LT", 0x3c, 0x0), ("Lacute", 0x139, 0x0),
    ("Lambda", 0x39b, 0x0), ("Lang", 0x27ea, 0x0), ("Laplacetrf", 0x2112, 0x0),
    ("Larr", 0x219e, 0x0), ("Lcaron", 0x13d, 0x0), ("Lcedil", 0x13b, 0x0), ("Lcy", 0x41b, 0x0),
    ("LeftAngleBracket", 0x27e8, 0x0), ("LeftArrow", 0x2190, 0x0), ("LeftArrowBar", 0x21e4, 0x0),
    ("LeftArrowRightArrow", 0x21c6, 0x0), ("LeftCeiling", 0x2308, 0x0),
    ("LeftDoubleBracket", 0x27e6, 0x0), ("LeftDownTeeVector", 0x2961, 0x0),
    ("LeftDownVector", 0x21c3, 0x0), ("LeftDownVectorBar", 0x2959, 0x0),
    ("LeftFloor", 0x230a, 0x0), ("LeftRightArrow", 0x2194, 0x0),
    ("LeftRightVector", 0x294e, 0x0), ("LeftTee", 0x22a3, 0x0), ("LeftTeeArrow", 0x21a4, 0x0),
    ("LeftTeeVector", 0x295a, 0x0), ("LeftTriangle", 0x22b2, 0x0),
    ("LeftTriangleBar", 0x29cf, 0x0), ("LeftTriangleEqual", 0x22b4, 0x0),
    ("LeftUpDownVector", 0x2951, 0x0), ("LeftUpTeeVector", 0x2960, 0x0),
    ("LeftUpVector", 0x21bf, 0x0), ("LeftUpVectorBar", 0x2958, 0x0), ("LeftVector", 0x21bc, 0x0),
    ("LeftVectorBar", 0x2952, 0x0), ("Leftarrow", 0x21d0, 0x0), ("Leftrightarrow", 0x21d4, 0x0),
    ("LessEqualGreater", 0x22da, 0x0), ("LessFullEqual", 0x2266, 0x0),
    ("LessGreater", 0x2276, 0x0), ("LessLess", 0x2aa1, 0x0), ("LessSlantEqual", 0x2a7d, 0x0),
    ("LessTilde", 0x2272, 0x0), ("Lfr", 0x1d50f, 0x0), ("Ll", 0x22d8, 0x0),
    ("Lleftarrow", 0x21da, 0x0), ("Lmidot", 0x13f, 0x0), ("LongLeftArrow", 0x27f5, 0x0),
    ("LongLeftRightArrow", 0x27f7, 0x0), ("LongRightArrow", 0x27f6, 0x0),
    ("Longleftarrow", 0x27f8, 0x0), ("Longleftrightarrow", 0x27fa, 0x0),
    ("Longrightarrow", 0x27f9, 0x0), ("Lopf", 0x1d543, 0x0), ("LowerLeftArrow", 0x2199, 0x0),
    ("LowerRightArrow", 0x2198, 0x0), ("Lscr", 0x2112, 0x0), ("Lsh", 0x21b0, 0x0),
    ("Lstrok", 0x141, 0x0), ("Lt", 0x226a, 0x0), ("Map", 0x2905, 0x0), ("Mcy", 0x41c, 0x0),
    ("MediumSpace", 0x205f, 0x0), ("Mellintrf", 0x2133, 0x0), ("Mfr", 0x1d510, 0x0),
    ("MinusPlus", 0x2213, 0x0), ("Mopf", 0x1d544, 0x0), ("Mscr", 0x2133, 0x0), ("Mu", 0x39c, 0x0)
  ]

/-- References from `NJcy` to `RuleDelayed`; the second code point is zero where there is only one.
-/
def referencesUpperNToR : Array (String × Nat × Nat) :=
  #[
    ("NJcy", 0x40a, 0x0), ("Nacute", 0x143, 0x0), ("Ncaron", 0x147, 0x0), ("Ncedil", 0x145, 0x0),
    ("Ncy", 0x41d, 0x0), ("NegativeMediumSpace", 0x200b, 0x0),
    ("NegativeThickSpace", 0x200b, 0x0), ("NegativeThinSpace", 0x200b, 0x0),
    ("NegativeVeryThinSpace", 0x200b, 0x0), ("NestedGreaterGreater", 0x226b, 0x0),
    ("NestedLessLess", 0x226a, 0x0), ("NewLine", 0xa, 0x0), ("Nfr", 0x1d511, 0x0),
    ("NoBreak", 0x2060, 0x0), ("NonBreakingSpace", 0xa0, 0x0), ("Nopf", 0x2115, 0x0),
    ("Not", 0x2aec, 0x0), ("NotCongruent", 0x2262, 0x0), ("NotCupCap", 0x226d, 0x0),
    ("NotDoubleVerticalBar", 0x2226, 0x0), ("NotElement", 0x2209, 0x0),
    ("NotEqual", 0x2260, 0x0), ("NotEqualTilde", 0x2242, 0x338), ("NotExists", 0x2204, 0x0),
    ("NotGreater", 0x226f, 0x0), ("NotGreaterEqual", 0x2271, 0x0),
    ("NotGreaterFullEqual", 0x2267, 0x338), ("NotGreaterGreater", 0x226b, 0x338),
    ("NotGreaterLess", 0x2279, 0x0), ("NotGreaterSlantEqual", 0x2a7e, 0x338),
    ("NotGreaterTilde", 0x2275, 0x0), ("NotHumpDownHump", 0x224e, 0x338),
    ("NotHumpEqual", 0x224f, 0x338), ("NotLeftTriangle", 0x22ea, 0x0),
    ("NotLeftTriangleBar", 0x29cf, 0x338), ("NotLeftTriangleEqual", 0x22ec, 0x0),
    ("NotLess", 0x226e, 0x0), ("NotLessEqual", 0x2270, 0x0), ("NotLessGreater", 0x2278, 0x0),
    ("NotLessLess", 0x226a, 0x338), ("NotLessSlantEqual", 0x2a7d, 0x338),
    ("NotLessTilde", 0x2274, 0x0), ("NotNestedGreaterGreater", 0x2aa2, 0x338),
    ("NotNestedLessLess", 0x2aa1, 0x338), ("NotPrecedes", 0x2280, 0x0),
    ("NotPrecedesEqual", 0x2aaf, 0x338), ("NotPrecedesSlantEqual", 0x22e0, 0x0),
    ("NotReverseElement", 0x220c, 0x0), ("NotRightTriangle", 0x22eb, 0x0),
    ("NotRightTriangleBar", 0x29d0, 0x338), ("NotRightTriangleEqual", 0x22ed, 0x0),
    ("NotSquareSubset", 0x228f, 0x338), ("NotSquareSubsetEqual", 0x22e2, 0x0),
    ("NotSquareSuperset", 0x2290, 0x338), ("NotSquareSupersetEqual", 0x22e3, 0x0),
    ("NotSubset", 0x2282, 0x20d2), ("NotSubsetEqual", 0x2288, 0x0), ("NotSucceeds", 0x2281, 0x0),
    ("NotSucceedsEqual", 0x2ab0, 0x338), ("NotSucceedsSlantEqual", 0x22e1, 0x0),
    ("NotSucceedsTilde", 0x227f, 0x338), ("NotSuperset", 0x2283, 0x20d2),
    ("NotSupersetEqual", 0x2289, 0x0), ("NotTilde", 0x2241, 0x0), ("NotTildeEqual", 0x2244, 0x0),
    ("NotTildeFullEqual", 0x2247, 0x0), ("NotTildeTilde", 0x2249, 0x0),
    ("NotVerticalBar", 0x2224, 0x0), ("Nscr", 0x1d4a9, 0x0), ("Ntilde", 0xd1, 0x0),
    ("Nu", 0x39d, 0x0), ("OElig", 0x152, 0x0), ("Oacute", 0xd3, 0x0), ("Ocirc", 0xd4, 0x0),
    ("Ocy", 0x41e, 0x0), ("Odblac", 0x150, 0x0), ("Ofr", 0x1d512, 0x0), ("Ograve", 0xd2, 0x0),
    ("Omacr", 0x14c, 0x0), ("Omega", 0x3a9, 0x0), ("Omicron", 0x39f, 0x0),
    ("Oopf", 0x1d546, 0x0), ("OpenCurlyDoubleQuote", 0x201c, 0x0),
    ("OpenCurlyQuote", 0x2018, 0x0), ("Or", 0x2a54, 0x0), ("Oscr", 0x1d4aa, 0x0),
    ("Oslash", 0xd8, 0x0), ("Otilde", 0xd5, 0x0), ("Otimes", 0x2a37, 0x0), ("Ouml", 0xd6, 0x0),
    ("OverBar", 0x203e, 0x0), ("OverBrace", 0x23de, 0x0), ("OverBracket", 0x23b4, 0x0),
    ("OverParenthesis", 0x23dc, 0x0), ("PartialD", 0x2202, 0x0), ("Pcy", 0x41f, 0x0),
    ("Pfr", 0x1d513, 0x0), ("Phi", 0x3a6, 0x0), ("Pi", 0x3a0, 0x0), ("PlusMinus", 0xb1, 0x0),
    ("Poincareplane", 0x210c, 0x0), ("Popf", 0x2119, 0x0), ("Pr", 0x2abb, 0x0),
    ("Precedes", 0x227a, 0x0), ("PrecedesEqual", 0x2aaf, 0x0),
    ("PrecedesSlantEqual", 0x227c, 0x0), ("PrecedesTilde", 0x227e, 0x0), ("Prime", 0x2033, 0x0),
    ("Product", 0x220f, 0x0), ("Proportion", 0x2237, 0x0), ("Proportional", 0x221d, 0x0),
    ("Pscr", 0x1d4ab, 0x0), ("Psi", 0x3a8, 0x0), ("QUOT", 0x22, 0x0), ("Qfr", 0x1d514, 0x0),
    ("Qopf", 0x211a, 0x0), ("Qscr", 0x1d4ac, 0x0), ("RBarr", 0x2910, 0x0), ("REG", 0xae, 0x0),
    ("Racute", 0x154, 0x0), ("Rang", 0x27eb, 0x0), ("Rarr", 0x21a0, 0x0),
    ("Rarrtl", 0x2916, 0x0), ("Rcaron", 0x158, 0x0), ("Rcedil", 0x156, 0x0), ("Rcy", 0x420, 0x0),
    ("Re", 0x211c, 0x0), ("ReverseElement", 0x220b, 0x0), ("ReverseEquilibrium", 0x21cb, 0x0),
    ("ReverseUpEquilibrium", 0x296f, 0x0), ("Rfr", 0x211c, 0x0), ("Rho", 0x3a1, 0x0),
    ("RightAngleBracket", 0x27e9, 0x0), ("RightArrow", 0x2192, 0x0),
    ("RightArrowBar", 0x21e5, 0x0), ("RightArrowLeftArrow", 0x21c4, 0x0),
    ("RightCeiling", 0x2309, 0x0), ("RightDoubleBracket", 0x27e7, 0x0),
    ("RightDownTeeVector", 0x295d, 0x0), ("RightDownVector", 0x21c2, 0x0),
    ("RightDownVectorBar", 0x2955, 0x0), ("RightFloor", 0x230b, 0x0), ("RightTee", 0x22a2, 0x0),
    ("RightTeeArrow", 0x21a6, 0x0), ("RightTeeVector", 0x295b, 0x0),
    ("RightTriangle", 0x22b3, 0x0), ("RightTriangleBar", 0x29d0, 0x0),
    ("RightTriangleEqual", 0x22b5, 0x0), ("RightUpDownVector", 0x294f, 0x0),
    ("RightUpTeeVector", 0x295c, 0x0), ("RightUpVector", 0x21be, 0x0),
    ("RightUpVectorBar", 0x2954, 0x0), ("RightVector", 0x21c0, 0x0),
    ("RightVectorBar", 0x2953, 0x0), ("Rightarrow", 0x21d2, 0x0), ("Ropf", 0x211d, 0x0),
    ("RoundImplies", 0x2970, 0x0), ("Rrightarrow", 0x21db, 0x0), ("Rscr", 0x211b, 0x0),
    ("Rsh", 0x21b1, 0x0), ("RuleDelayed", 0x29f4, 0x0)
  ]

/-- References from `SHCHcy` to `Zscr`; the second code point is zero where there is only one. -/
def referencesUpperSToZ : Array (String × Nat × Nat) :=
  #[
    ("SHCHcy", 0x429, 0x0), ("SHcy", 0x428, 0x0), ("SOFTcy", 0x42c, 0x0), ("Sacute", 0x15a, 0x0),
    ("Sc", 0x2abc, 0x0), ("Scaron", 0x160, 0x0), ("Scedil", 0x15e, 0x0), ("Scirc", 0x15c, 0x0),
    ("Scy", 0x421, 0x0), ("Sfr", 0x1d516, 0x0), ("ShortDownArrow", 0x2193, 0x0),
    ("ShortLeftArrow", 0x2190, 0x0), ("ShortRightArrow", 0x2192, 0x0),
    ("ShortUpArrow", 0x2191, 0x0), ("Sigma", 0x3a3, 0x0), ("SmallCircle", 0x2218, 0x0),
    ("Sopf", 0x1d54a, 0x0), ("Sqrt", 0x221a, 0x0), ("Square", 0x25a1, 0x0),
    ("SquareIntersection", 0x2293, 0x0), ("SquareSubset", 0x228f, 0x0),
    ("SquareSubsetEqual", 0x2291, 0x0), ("SquareSuperset", 0x2290, 0x0),
    ("SquareSupersetEqual", 0x2292, 0x0), ("SquareUnion", 0x2294, 0x0), ("Sscr", 0x1d4ae, 0x0),
    ("Star", 0x22c6, 0x0), ("Sub", 0x22d0, 0x0), ("Subset", 0x22d0, 0x0),
    ("SubsetEqual", 0x2286, 0x0), ("Succeeds", 0x227b, 0x0), ("SucceedsEqual", 0x2ab0, 0x0),
    ("SucceedsSlantEqual", 0x227d, 0x0), ("SucceedsTilde", 0x227f, 0x0),
    ("SuchThat", 0x220b, 0x0), ("Sum", 0x2211, 0x0), ("Sup", 0x22d1, 0x0),
    ("Superset", 0x2283, 0x0), ("SupersetEqual", 0x2287, 0x0), ("Supset", 0x22d1, 0x0),
    ("THORN", 0xde, 0x0), ("TRADE", 0x2122, 0x0), ("TSHcy", 0x40b, 0x0), ("TScy", 0x426, 0x0),
    ("Tab", 0x9, 0x0), ("Tau", 0x3a4, 0x0), ("Tcaron", 0x164, 0x0), ("Tcedil", 0x162, 0x0),
    ("Tcy", 0x422, 0x0), ("Tfr", 0x1d517, 0x0), ("Therefore", 0x2234, 0x0),
    ("Theta", 0x398, 0x0), ("ThickSpace", 0x205f, 0x200a), ("ThinSpace", 0x2009, 0x0),
    ("Tilde", 0x223c, 0x0), ("TildeEqual", 0x2243, 0x0), ("TildeFullEqual", 0x2245, 0x0),
    ("TildeTilde", 0x2248, 0x0), ("Topf", 0x1d54b, 0x0), ("TripleDot", 0x20db, 0x0),
    ("Tscr", 0x1d4af, 0x0), ("Tstrok", 0x166, 0x0), ("Uacute", 0xda, 0x0), ("Uarr", 0x219f, 0x0),
    ("Uarrocir", 0x2949, 0x0), ("Ubrcy", 0x40e, 0x0), ("Ubreve", 0x16c, 0x0),
    ("Ucirc", 0xdb, 0x0), ("Ucy", 0x423, 0x0), ("Udblac", 0x170, 0x0), ("Ufr", 0x1d518, 0x0),
    ("Ugrave", 0xd9, 0x0), ("Umacr", 0x16a, 0x0), ("UnderBar", 0x5f, 0x0),
    ("UnderBrace", 0x23df, 0x0), ("UnderBracket", 0x23b5, 0x0),
    ("UnderParenthesis", 0x23dd, 0x0), ("Union", 0x22c3, 0x0), ("UnionPlus", 0x228e, 0x0),
    ("Uogon", 0x172, 0x0), ("Uopf", 0x1d54c, 0x0), ("UpArrow", 0x2191, 0x0),
    ("UpArrowBar", 0x2912, 0x0), ("UpArrowDownArrow", 0x21c5, 0x0), ("UpDownArrow", 0x2195, 0x0),
    ("UpEquilibrium", 0x296e, 0x0), ("UpTee", 0x22a5, 0x0), ("UpTeeArrow", 0x21a5, 0x0),
    ("Uparrow", 0x21d1, 0x0), ("Updownarrow", 0x21d5, 0x0), ("UpperLeftArrow", 0x2196, 0x0),
    ("UpperRightArrow", 0x2197, 0x0), ("Upsi", 0x3d2, 0x0), ("Upsilon", 0x3a5, 0x0),
    ("Uring", 0x16e, 0x0), ("Uscr", 0x1d4b0, 0x0), ("Utilde", 0x168, 0x0), ("Uuml", 0xdc, 0x0),
    ("VDash", 0x22ab, 0x0), ("Vbar", 0x2aeb, 0x0), ("Vcy", 0x412, 0x0), ("Vdash", 0x22a9, 0x0),
    ("Vdashl", 0x2ae6, 0x0), ("Vee", 0x22c1, 0x0), ("Verbar", 0x2016, 0x0),
    ("Vert", 0x2016, 0x0), ("VerticalBar", 0x2223, 0x0), ("VerticalLine", 0x7c, 0x0),
    ("VerticalSeparator", 0x2758, 0x0), ("VerticalTilde", 0x2240, 0x0),
    ("VeryThinSpace", 0x200a, 0x0), ("Vfr", 0x1d519, 0x0), ("Vopf", 0x1d54d, 0x0),
    ("Vscr", 0x1d4b1, 0x0), ("Vvdash", 0x22aa, 0x0), ("Wcirc", 0x174, 0x0),
    ("Wedge", 0x22c0, 0x0), ("Wfr", 0x1d51a, 0x0), ("Wopf", 0x1d54e, 0x0),
    ("Wscr", 0x1d4b2, 0x0), ("Xfr", 0x1d51b, 0x0), ("Xi", 0x39e, 0x0), ("Xopf", 0x1d54f, 0x0),
    ("Xscr", 0x1d4b3, 0x0), ("YAcy", 0x42f, 0x0), ("YIcy", 0x407, 0x0), ("YUcy", 0x42e, 0x0),
    ("Yacute", 0xdd, 0x0), ("Ycirc", 0x176, 0x0), ("Ycy", 0x42b, 0x0), ("Yfr", 0x1d51c, 0x0),
    ("Yopf", 0x1d550, 0x0), ("Yscr", 0x1d4b4, 0x0), ("Yuml", 0x178, 0x0), ("ZHcy", 0x416, 0x0),
    ("Zacute", 0x179, 0x0), ("Zcaron", 0x17d, 0x0), ("Zcy", 0x417, 0x0), ("Zdot", 0x17b, 0x0),
    ("ZeroWidthSpace", 0x200b, 0x0), ("Zeta", 0x396, 0x0), ("Zfr", 0x2128, 0x0),
    ("Zopf", 0x2124, 0x0), ("Zscr", 0x1d4b5, 0x0)
  ]

/-- References from `aacute` to `bumpeq`; the second code point is zero where there is only one. -/
def referencesLowerAToB : Array (String × Nat × Nat) :=
  #[
    ("aacute", 0xe1, 0x0), ("abreve", 0x103, 0x0), ("ac", 0x223e, 0x0), ("acE", 0x223e, 0x333),
    ("acd", 0x223f, 0x0), ("acirc", 0xe2, 0x0), ("acute", 0xb4, 0x0), ("acy", 0x430, 0x0),
    ("aelig", 0xe6, 0x0), ("af", 0x2061, 0x0), ("afr", 0x1d51e, 0x0), ("agrave", 0xe0, 0x0),
    ("alefsym", 0x2135, 0x0), ("aleph", 0x2135, 0x0), ("alpha", 0x3b1, 0x0),
    ("amacr", 0x101, 0x0), ("amalg", 0x2a3f, 0x0), ("amp", 0x26, 0x0), ("and", 0x2227, 0x0),
    ("andand", 0x2a55, 0x0), ("andd", 0x2a5c, 0x0), ("andslope", 0x2a58, 0x0),
    ("andv", 0x2a5a, 0x0), ("ang", 0x2220, 0x0), ("ange", 0x29a4, 0x0), ("angle", 0x2220, 0x0),
    ("angmsd", 0x2221, 0x0), ("angmsdaa", 0x29a8, 0x0), ("angmsdab", 0x29a9, 0x0),
    ("angmsdac", 0x29aa, 0x0), ("angmsdad", 0x29ab, 0x0), ("angmsdae", 0x29ac, 0x0),
    ("angmsdaf", 0x29ad, 0x0), ("angmsdag", 0x29ae, 0x0), ("angmsdah", 0x29af, 0x0),
    ("angrt", 0x221f, 0x0), ("angrtvb", 0x22be, 0x0), ("angrtvbd", 0x299d, 0x0),
    ("angsph", 0x2222, 0x0), ("angst", 0xc5, 0x0), ("angzarr", 0x237c, 0x0),
    ("aogon", 0x105, 0x0), ("aopf", 0x1d552, 0x0), ("ap", 0x2248, 0x0), ("apE", 0x2a70, 0x0),
    ("apacir", 0x2a6f, 0x0), ("ape", 0x224a, 0x0), ("apid", 0x224b, 0x0), ("apos", 0x27, 0x0),
    ("approx", 0x2248, 0x0), ("approxeq", 0x224a, 0x0), ("aring", 0xe5, 0x0),
    ("ascr", 0x1d4b6, 0x0), ("ast", 0x2a, 0x0), ("asymp", 0x2248, 0x0), ("asympeq", 0x224d, 0x0),
    ("atilde", 0xe3, 0x0), ("auml", 0xe4, 0x0), ("awconint", 0x2233, 0x0),
    ("awint", 0x2a11, 0x0), ("bNot", 0x2aed, 0x0), ("backcong", 0x224c, 0x0),
    ("backepsilon", 0x3f6, 0x0), ("backprime", 0x2035, 0x0), ("backsim", 0x223d, 0x0),
    ("backsimeq", 0x22cd, 0x0), ("barvee", 0x22bd, 0x0), ("barwed", 0x2305, 0x0),
    ("barwedge", 0x2305, 0x0), ("bbrk", 0x23b5, 0x0), ("bbrktbrk", 0x23b6, 0x0),
    ("bcong", 0x224c, 0x0), ("bcy", 0x431, 0x0), ("bdquo", 0x201e, 0x0), ("becaus", 0x2235, 0x0),
    ("because", 0x2235, 0x0), ("bemptyv", 0x29b0, 0x0), ("bepsi", 0x3f6, 0x0),
    ("bernou", 0x212c, 0x0), ("beta", 0x3b2, 0x0), ("beth", 0x2136, 0x0),
    ("between", 0x226c, 0x0), ("bfr", 0x1d51f, 0x0), ("bigcap", 0x22c2, 0x0),
    ("bigcirc", 0x25ef, 0x0), ("bigcup", 0x22c3, 0x0), ("bigodot", 0x2a00, 0x0),
    ("bigoplus", 0x2a01, 0x0), ("bigotimes", 0x2a02, 0x0), ("bigsqcup", 0x2a06, 0x0),
    ("bigstar", 0x2605, 0x0), ("bigtriangledown", 0x25bd, 0x0), ("bigtriangleup", 0x25b3, 0x0),
    ("biguplus", 0x2a04, 0x0), ("bigvee", 0x22c1, 0x0), ("bigwedge", 0x22c0, 0x0),
    ("bkarow", 0x290d, 0x0), ("blacklozenge", 0x29eb, 0x0), ("blacksquare", 0x25aa, 0x0),
    ("blacktriangle", 0x25b4, 0x0), ("blacktriangledown", 0x25be, 0x0),
    ("blacktriangleleft", 0x25c2, 0x0), ("blacktriangleright", 0x25b8, 0x0),
    ("blank", 0x2423, 0x0), ("blk12", 0x2592, 0x0), ("blk14", 0x2591, 0x0),
    ("blk34", 0x2593, 0x0), ("block", 0x2588, 0x0), ("bne", 0x3d, 0x20e5),
    ("bnequiv", 0x2261, 0x20e5), ("bnot", 0x2310, 0x0), ("bopf", 0x1d553, 0x0),
    ("bot", 0x22a5, 0x0), ("bottom", 0x22a5, 0x0), ("bowtie", 0x22c8, 0x0),
    ("boxDL", 0x2557, 0x0), ("boxDR", 0x2554, 0x0), ("boxDl", 0x2556, 0x0),
    ("boxDr", 0x2553, 0x0), ("boxH", 0x2550, 0x0), ("boxHD", 0x2566, 0x0),
    ("boxHU", 0x2569, 0x0), ("boxHd", 0x2564, 0x0), ("boxHu", 0x2567, 0x0),
    ("boxUL", 0x255d, 0x0), ("boxUR", 0x255a, 0x0), ("boxUl", 0x255c, 0x0),
    ("boxUr", 0x2559, 0x0), ("boxV", 0x2551, 0x0), ("boxVH", 0x256c, 0x0),
    ("boxVL", 0x2563, 0x0), ("boxVR", 0x2560, 0x0), ("boxVh", 0x256b, 0x0),
    ("boxVl", 0x2562, 0x0), ("boxVr", 0x255f, 0x0), ("boxbox", 0x29c9, 0x0),
    ("boxdL", 0x2555, 0x0), ("boxdR", 0x2552, 0x0), ("boxdl", 0x2510, 0x0),
    ("boxdr", 0x250c, 0x0), ("boxh", 0x2500, 0x0), ("boxhD", 0x2565, 0x0),
    ("boxhU", 0x2568, 0x0), ("boxhd", 0x252c, 0x0), ("boxhu", 0x2534, 0x0),
    ("boxminus", 0x229f, 0x0), ("boxplus", 0x229e, 0x0), ("boxtimes", 0x22a0, 0x0),
    ("boxuL", 0x255b, 0x0), ("boxuR", 0x2558, 0x0), ("boxul", 0x2518, 0x0),
    ("boxur", 0x2514, 0x0), ("boxv", 0x2502, 0x0), ("boxvH", 0x256a, 0x0),
    ("boxvL", 0x2561, 0x0), ("boxvR", 0x255e, 0x0), ("boxvh", 0x253c, 0x0),
    ("boxvl", 0x2524, 0x0), ("boxvr", 0x251c, 0x0), ("bprime", 0x2035, 0x0),
    ("breve", 0x2d8, 0x0), ("brvbar", 0xa6, 0x0), ("bscr", 0x1d4b7, 0x0), ("bsemi", 0x204f, 0x0),
    ("bsim", 0x223d, 0x0), ("bsime", 0x22cd, 0x0), ("bsol", 0x5c, 0x0), ("bsolb", 0x29c5, 0x0),
    ("bsolhsub", 0x27c8, 0x0), ("bull", 0x2022, 0x0), ("bullet", 0x2022, 0x0),
    ("bump", 0x224e, 0x0), ("bumpE", 0x2aae, 0x0), ("bumpe", 0x224f, 0x0),
    ("bumpeq", 0x224f, 0x0)
  ]

/-- References from `cacute` to `dzigrarr`; the second code point is zero where there is only one.
-/
def referencesLowerCToD : Array (String × Nat × Nat) :=
  #[
    ("cacute", 0x107, 0x0), ("cap", 0x2229, 0x0), ("capand", 0x2a44, 0x0),
    ("capbrcup", 0x2a49, 0x0), ("capcap", 0x2a4b, 0x0), ("capcup", 0x2a47, 0x0),
    ("capdot", 0x2a40, 0x0), ("caps", 0x2229, 0xfe00), ("caret", 0x2041, 0x0),
    ("caron", 0x2c7, 0x0), ("ccaps", 0x2a4d, 0x0), ("ccaron", 0x10d, 0x0), ("ccedil", 0xe7, 0x0),
    ("ccirc", 0x109, 0x0), ("ccups", 0x2a4c, 0x0), ("ccupssm", 0x2a50, 0x0),
    ("cdot", 0x10b, 0x0), ("cedil", 0xb8, 0x0), ("cemptyv", 0x29b2, 0x0), ("cent", 0xa2, 0x0),
    ("centerdot", 0xb7, 0x0), ("cfr", 0x1d520, 0x0), ("chcy", 0x447, 0x0),
    ("check", 0x2713, 0x0), ("checkmark", 0x2713, 0x0), ("chi", 0x3c7, 0x0),
    ("cir", 0x25cb, 0x0), ("cirE", 0x29c3, 0x0), ("circ", 0x2c6, 0x0), ("circeq", 0x2257, 0x0),
    ("circlearrowleft", 0x21ba, 0x0), ("circlearrowright", 0x21bb, 0x0), ("circledR", 0xae, 0x0),
    ("circledS", 0x24c8, 0x0), ("circledast", 0x229b, 0x0), ("circledcirc", 0x229a, 0x0),
    ("circleddash", 0x229d, 0x0), ("cire", 0x2257, 0x0), ("cirfnint", 0x2a10, 0x0),
    ("cirmid", 0x2aef, 0x0), ("cirscir", 0x29c2, 0x0), ("clubs", 0x2663, 0x0),
    ("clubsuit", 0x2663, 0x0), ("colon", 0x3a, 0x0), ("colone", 0x2254, 0x0),
    ("coloneq", 0x2254, 0x0), ("comma", 0x2c, 0x0), ("commat", 0x40, 0x0), ("comp", 0x2201, 0x0),
    ("compfn", 0x2218, 0x0), ("complement", 0x2201, 0x0), ("complexes", 0x2102, 0x0),
    ("cong", 0x2245, 0x0), ("congdot", 0x2a6d, 0x0), ("conint", 0x222e, 0x0),
    ("copf", 0x1d554, 0x0), ("coprod", 0x2210, 0x0), ("copy", 0xa9, 0x0),
    ("copysr", 0x2117, 0x0), ("crarr", 0x21b5, 0x0), ("cross", 0x2717, 0x0),
    ("cscr", 0x1d4b8, 0x0), ("csub", 0x2acf, 0x0), ("csube", 0x2ad1, 0x0), ("csup", 0x2ad0, 0x0),
    ("csupe", 0x2ad2, 0x0), ("ctdot", 0x22ef, 0x0), ("cudarrl", 0x2938, 0x0),
    ("cudarrr", 0x2935, 0x0), ("cuepr", 0x22de, 0x0), ("cuesc", 0x22df, 0x0),
    ("cularr", 0x21b6, 0x0), ("cularrp", 0x293d, 0x0), ("cup", 0x222a, 0x0),
    ("cupbrcap", 0x2a48, 0x0), ("cupcap", 0x2a46, 0x0), ("cupcup", 0x2a4a, 0x0),
    ("cupdot", 0x228d, 0x0), ("cupor", 0x2a45, 0x0), ("cups", 0x222a, 0xfe00),
    ("curarr", 0x21b7, 0x0), ("curarrm", 0x293c, 0x0), ("curlyeqprec", 0x22de, 0x0),
    ("curlyeqsucc", 0x22df, 0x0), ("curlyvee", 0x22ce, 0x0), ("curlywedge", 0x22cf, 0x0),
    ("curren", 0xa4, 0x0), ("curvearrowleft", 0x21b6, 0x0), ("curvearrowright", 0x21b7, 0x0),
    ("cuvee", 0x22ce, 0x0), ("cuwed", 0x22cf, 0x0), ("cwconint", 0x2232, 0x0),
    ("cwint", 0x2231, 0x0), ("cylcty", 0x232d, 0x0), ("dArr", 0x21d3, 0x0),
    ("dHar", 0x2965, 0x0), ("dagger", 0x2020, 0x0), ("daleth", 0x2138, 0x0),
    ("darr", 0x2193, 0x0), ("dash", 0x2010, 0x0), ("dashv", 0x22a3, 0x0),
    ("dbkarow", 0x290f, 0x0), ("dblac", 0x2dd, 0x0), ("dcaron", 0x10f, 0x0), ("dcy", 0x434, 0x0),
    ("dd", 0x2146, 0x0), ("ddagger", 0x2021, 0x0), ("ddarr", 0x21ca, 0x0),
    ("ddotseq", 0x2a77, 0x0), ("deg", 0xb0, 0x0), ("delta", 0x3b4, 0x0),
    ("demptyv", 0x29b1, 0x0), ("dfisht", 0x297f, 0x0), ("dfr", 0x1d521, 0x0),
    ("dharl", 0x21c3, 0x0), ("dharr", 0x21c2, 0x0), ("diam", 0x22c4, 0x0),
    ("diamond", 0x22c4, 0x0), ("diamondsuit", 0x2666, 0x0), ("diams", 0x2666, 0x0),
    ("die", 0xa8, 0x0), ("digamma", 0x3dd, 0x0), ("disin", 0x22f2, 0x0), ("div", 0xf7, 0x0),
    ("divide", 0xf7, 0x0), ("divideontimes", 0x22c7, 0x0), ("divonx", 0x22c7, 0x0),
    ("djcy", 0x452, 0x0), ("dlcorn", 0x231e, 0x0), ("dlcrop", 0x230d, 0x0),
    ("dollar", 0x24, 0x0), ("dopf", 0x1d555, 0x0), ("dot", 0x2d9, 0x0), ("doteq", 0x2250, 0x0),
    ("doteqdot", 0x2251, 0x0), ("dotminus", 0x2238, 0x0), ("dotplus", 0x2214, 0x0),
    ("dotsquare", 0x22a1, 0x0), ("doublebarwedge", 0x2306, 0x0), ("downarrow", 0x2193, 0x0),
    ("downdownarrows", 0x21ca, 0x0), ("downharpoonleft", 0x21c3, 0x0),
    ("downharpoonright", 0x21c2, 0x0), ("drbkarow", 0x2910, 0x0), ("drcorn", 0x231f, 0x0),
    ("drcrop", 0x230c, 0x0), ("dscr", 0x1d4b9, 0x0), ("dscy", 0x455, 0x0), ("dsol", 0x29f6, 0x0),
    ("dstrok", 0x111, 0x0), ("dtdot", 0x22f1, 0x0), ("dtri", 0x25bf, 0x0),
    ("dtrif", 0x25be, 0x0), ("duarr", 0x21f5, 0x0), ("duhar", 0x296f, 0x0),
    ("dwangle", 0x29a6, 0x0), ("dzcy", 0x45f, 0x0), ("dzigrarr", 0x27ff, 0x0)
  ]

/-- References from `eDDot` to `gvnE`; the second code point is zero where there is only one. -/
def referencesLowerEToG : Array (String × Nat × Nat) :=
  #[
    ("eDDot", 0x2a77, 0x0), ("eDot", 0x2251, 0x0), ("eacute", 0xe9, 0x0),
    ("easter", 0x2a6e, 0x0), ("ecaron", 0x11b, 0x0), ("ecir", 0x2256, 0x0), ("ecirc", 0xea, 0x0),
    ("ecolon", 0x2255, 0x0), ("ecy", 0x44d, 0x0), ("edot", 0x117, 0x0), ("ee", 0x2147, 0x0),
    ("efDot", 0x2252, 0x0), ("efr", 0x1d522, 0x0), ("eg", 0x2a9a, 0x0), ("egrave", 0xe8, 0x0),
    ("egs", 0x2a96, 0x0), ("egsdot", 0x2a98, 0x0), ("el", 0x2a99, 0x0),
    ("elinters", 0x23e7, 0x0), ("ell", 0x2113, 0x0), ("els", 0x2a95, 0x0),
    ("elsdot", 0x2a97, 0x0), ("emacr", 0x113, 0x0), ("empty", 0x2205, 0x0),
    ("emptyset", 0x2205, 0x0), ("emptyv", 0x2205, 0x0), ("emsp", 0x2003, 0x0),
    ("emsp13", 0x2004, 0x0), ("emsp14", 0x2005, 0x0), ("eng", 0x14b, 0x0), ("ensp", 0x2002, 0x0),
    ("eogon", 0x119, 0x0), ("eopf", 0x1d556, 0x0), ("epar", 0x22d5, 0x0),
    ("eparsl", 0x29e3, 0x0), ("eplus", 0x2a71, 0x0), ("epsi", 0x3b5, 0x0),
    ("epsilon", 0x3b5, 0x0), ("epsiv", 0x3f5, 0x0), ("eqcirc", 0x2256, 0x0),
    ("eqcolon", 0x2255, 0x0), ("eqsim", 0x2242, 0x0), ("eqslantgtr", 0x2a96, 0x0),
    ("eqslantless", 0x2a95, 0x0), ("equals", 0x3d, 0x0), ("equest", 0x225f, 0x0),
    ("equiv", 0x2261, 0x0), ("equivDD", 0x2a78, 0x0), ("eqvparsl", 0x29e5, 0x0),
    ("erDot", 0x2253, 0x0), ("erarr", 0x2971, 0x0), ("escr", 0x212f, 0x0),
    ("esdot", 0x2250, 0x0), ("esim", 0x2242, 0x0), ("eta", 0x3b7, 0x0), ("eth", 0xf0, 0x0),
    ("euml", 0xeb, 0x0), ("euro", 0x20ac, 0x0), ("excl", 0x21, 0x0), ("exist", 0x2203, 0x0),
    ("expectation", 0x2130, 0x0), ("exponentiale", 0x2147, 0x0), ("fallingdotseq", 0x2252, 0x0),
    ("fcy", 0x444, 0x0), ("female", 0x2640, 0x0), ("ffilig", 0xfb03, 0x0),
    ("fflig", 0xfb00, 0x0), ("ffllig", 0xfb04, 0x0), ("ffr", 0x1d523, 0x0),
    ("filig", 0xfb01, 0x0), ("fjlig", 0x66, 0x6a), ("flat", 0x266d, 0x0), ("fllig", 0xfb02, 0x0),
    ("fltns", 0x25b1, 0x0), ("fnof", 0x192, 0x0), ("fopf", 0x1d557, 0x0),
    ("forall", 0x2200, 0x0), ("fork", 0x22d4, 0x0), ("forkv", 0x2ad9, 0x0),
    ("fpartint", 0x2a0d, 0x0), ("frac12", 0xbd, 0x0), ("frac13", 0x2153, 0x0),
    ("frac14", 0xbc, 0x0), ("frac15", 0x2155, 0x0), ("frac16", 0x2159, 0x0),
    ("frac18", 0x215b, 0x0), ("frac23", 0x2154, 0x0), ("frac25", 0x2156, 0x0),
    ("frac34", 0xbe, 0x0), ("frac35", 0x2157, 0x0), ("frac38", 0x215c, 0x0),
    ("frac45", 0x2158, 0x0), ("frac56", 0x215a, 0x0), ("frac58", 0x215d, 0x0),
    ("frac78", 0x215e, 0x0), ("frasl", 0x2044, 0x0), ("frown", 0x2322, 0x0),
    ("fscr", 0x1d4bb, 0x0), ("gE", 0x2267, 0x0), ("gEl", 0x2a8c, 0x0), ("gacute", 0x1f5, 0x0),
    ("gamma", 0x3b3, 0x0), ("gammad", 0x3dd, 0x0), ("gap", 0x2a86, 0x0), ("gbreve", 0x11f, 0x0),
    ("gcirc", 0x11d, 0x0), ("gcy", 0x433, 0x0), ("gdot", 0x121, 0x0), ("ge", 0x2265, 0x0),
    ("gel", 0x22db, 0x0), ("geq", 0x2265, 0x0), ("geqq", 0x2267, 0x0), ("geqslant", 0x2a7e, 0x0),
    ("ges", 0x2a7e, 0x0), ("gescc", 0x2aa9, 0x0), ("gesdot", 0x2a80, 0x0),
    ("gesdoto", 0x2a82, 0x0), ("gesdotol", 0x2a84, 0x0), ("gesl", 0x22db, 0xfe00),
    ("gesles", 0x2a94, 0x0), ("gfr", 0x1d524, 0x0), ("gg", 0x226b, 0x0), ("ggg", 0x22d9, 0x0),
    ("gimel", 0x2137, 0x0), ("gjcy", 0x453, 0x0), ("gl", 0x2277, 0x0), ("glE", 0x2a92, 0x0),
    ("gla", 0x2aa5, 0x0), ("glj", 0x2aa4, 0x0), ("gnE", 0x2269, 0x0), ("gnap", 0x2a8a, 0x0),
    ("gnapprox", 0x2a8a, 0x0), ("gne", 0x2a88, 0x0), ("gneq", 0x2a88, 0x0),
    ("gneqq", 0x2269, 0x0), ("gnsim", 0x22e7, 0x0), ("gopf", 0x1d558, 0x0), ("grave", 0x60, 0x0),
    ("gscr", 0x210a, 0x0), ("gsim", 0x2273, 0x0), ("gsime", 0x2a8e, 0x0), ("gsiml", 0x2a90, 0x0),
    ("gt", 0x3e, 0x0), ("gtcc", 0x2aa7, 0x0), ("gtcir", 0x2a7a, 0x0), ("gtdot", 0x22d7, 0x0),
    ("gtlPar", 0x2995, 0x0), ("gtquest", 0x2a7c, 0x0), ("gtrapprox", 0x2a86, 0x0),
    ("gtrarr", 0x2978, 0x0), ("gtrdot", 0x22d7, 0x0), ("gtreqless", 0x22db, 0x0),
    ("gtreqqless", 0x2a8c, 0x0), ("gtrless", 0x2277, 0x0), ("gtrsim", 0x2273, 0x0),
    ("gvertneqq", 0x2269, 0xfe00), ("gvnE", 0x2269, 0xfe00)
  ]

/-- References from `hArr` to `lvnE`; the second code point is zero where there is only one. -/
def referencesLowerHToL : Array (String × Nat × Nat) :=
  #[
    ("hArr", 0x21d4, 0x0), ("hairsp", 0x200a, 0x0), ("half", 0xbd, 0x0), ("hamilt", 0x210b, 0x0),
    ("hardcy", 0x44a, 0x0), ("harr", 0x2194, 0x0), ("harrcir", 0x2948, 0x0),
    ("harrw", 0x21ad, 0x0), ("hbar", 0x210f, 0x0), ("hcirc", 0x125, 0x0),
    ("hearts", 0x2665, 0x0), ("heartsuit", 0x2665, 0x0), ("hellip", 0x2026, 0x0),
    ("hercon", 0x22b9, 0x0), ("hfr", 0x1d525, 0x0), ("hksearow", 0x2925, 0x0),
    ("hkswarow", 0x2926, 0x0), ("hoarr", 0x21ff, 0x0), ("homtht", 0x223b, 0x0),
    ("hookleftarrow", 0x21a9, 0x0), ("hookrightarrow", 0x21aa, 0x0), ("hopf", 0x1d559, 0x0),
    ("horbar", 0x2015, 0x0), ("hscr", 0x1d4bd, 0x0), ("hslash", 0x210f, 0x0),
    ("hstrok", 0x127, 0x0), ("hybull", 0x2043, 0x0), ("hyphen", 0x2010, 0x0),
    ("iacute", 0xed, 0x0), ("ic", 0x2063, 0x0), ("icirc", 0xee, 0x0), ("icy", 0x438, 0x0),
    ("iecy", 0x435, 0x0), ("iexcl", 0xa1, 0x0), ("iff", 0x21d4, 0x0), ("ifr", 0x1d526, 0x0),
    ("igrave", 0xec, 0x0), ("ii", 0x2148, 0x0), ("iiiint", 0x2a0c, 0x0), ("iiint", 0x222d, 0x0),
    ("iinfin", 0x29dc, 0x0), ("iiota", 0x2129, 0x0), ("ijlig", 0x133, 0x0),
    ("imacr", 0x12b, 0x0), ("image", 0x2111, 0x0), ("imagline", 0x2110, 0x0),
    ("imagpart", 0x2111, 0x0), ("imath", 0x131, 0x0), ("imof", 0x22b7, 0x0),
    ("imped", 0x1b5, 0x0), ("in", 0x2208, 0x0), ("incare", 0x2105, 0x0), ("infin", 0x221e, 0x0),
    ("infintie", 0x29dd, 0x0), ("inodot", 0x131, 0x0), ("int", 0x222b, 0x0),
    ("intcal", 0x22ba, 0x0), ("integers", 0x2124, 0x0), ("intercal", 0x22ba, 0x0),
    ("intlarhk", 0x2a17, 0x0), ("intprod", 0x2a3c, 0x0), ("iocy", 0x451, 0x0),
    ("iogon", 0x12f, 0x0), ("iopf", 0x1d55a, 0x0), ("iota", 0x3b9, 0x0), ("iprod", 0x2a3c, 0x0),
    ("iquest", 0xbf, 0x0), ("iscr", 0x1d4be, 0x0), ("isin", 0x2208, 0x0), ("isinE", 0x22f9, 0x0),
    ("isindot", 0x22f5, 0x0), ("isins", 0x22f4, 0x0), ("isinsv", 0x22f3, 0x0),
    ("isinv", 0x2208, 0x0), ("it", 0x2062, 0x0), ("itilde", 0x129, 0x0), ("iukcy", 0x456, 0x0),
    ("iuml", 0xef, 0x0), ("jcirc", 0x135, 0x0), ("jcy", 0x439, 0x0), ("jfr", 0x1d527, 0x0),
    ("jmath", 0x237, 0x0), ("jopf", 0x1d55b, 0x0), ("jscr", 0x1d4bf, 0x0),
    ("jsercy", 0x458, 0x0), ("jukcy", 0x454, 0x0), ("kappa", 0x3ba, 0x0), ("kappav", 0x3f0, 0x0),
    ("kcedil", 0x137, 0x0), ("kcy", 0x43a, 0x0), ("kfr", 0x1d528, 0x0), ("kgreen", 0x138, 0x0),
    ("khcy", 0x445, 0x0), ("kjcy", 0x45c, 0x0), ("kopf", 0x1d55c, 0x0), ("kscr", 0x1d4c0, 0x0),
    ("lAarr", 0x21da, 0x0), ("lArr", 0x21d0, 0x0), ("lAtail", 0x291b, 0x0),
    ("lBarr", 0x290e, 0x0), ("lE", 0x2266, 0x0), ("lEg", 0x2a8b, 0x0), ("lHar", 0x2962, 0x0),
    ("lacute", 0x13a, 0x0), ("laemptyv", 0x29b4, 0x0), ("lagran", 0x2112, 0x0),
    ("lambda", 0x3bb, 0x0), ("lang", 0x27e8, 0x0), ("langd", 0x2991, 0x0),
    ("langle", 0x27e8, 0x0), ("lap", 0x2a85, 0x0), ("laquo", 0xab, 0x0), ("larr", 0x2190, 0x0),
    ("larrb", 0x21e4, 0x0), ("larrbfs", 0x291f, 0x0), ("larrfs", 0x291d, 0x0),
    ("larrhk", 0x21a9, 0x0), ("larrlp", 0x21ab, 0x0), ("larrpl", 0x2939, 0x0),
    ("larrsim", 0x2973, 0x0), ("larrtl", 0x21a2, 0x0), ("lat", 0x2aab, 0x0),
    ("latail", 0x2919, 0x0), ("late", 0x2aad, 0x0), ("lates", 0x2aad, 0xfe00),
    ("lbarr", 0x290c, 0x0), ("lbbrk", 0x2772, 0x0), ("lbrace", 0x7b, 0x0), ("lbrack", 0x5b, 0x0),
    ("lbrke", 0x298b, 0x0), ("lbrksld", 0x298f, 0x0), ("lbrkslu", 0x298d, 0x0),
    ("lcaron", 0x13e, 0x0), ("lcedil", 0x13c, 0x0), ("lceil", 0x2308, 0x0), ("lcub", 0x7b, 0x0),
    ("lcy", 0x43b, 0x0), ("ldca", 0x2936, 0x0), ("ldquo", 0x201c, 0x0), ("ldquor", 0x201e, 0x0),
    ("ldrdhar", 0x2967, 0x0), ("ldrushar", 0x294b, 0x0), ("ldsh", 0x21b2, 0x0),
    ("le", 0x2264, 0x0), ("leftarrow", 0x2190, 0x0), ("leftarrowtail", 0x21a2, 0x0),
    ("leftharpoondown", 0x21bd, 0x0), ("leftharpoonup", 0x21bc, 0x0),
    ("leftleftarrows", 0x21c7, 0x0), ("leftrightarrow", 0x2194, 0x0),
    ("leftrightarrows", 0x21c6, 0x0), ("leftrightharpoons", 0x21cb, 0x0),
    ("leftrightsquigarrow", 0x21ad, 0x0), ("leftthreetimes", 0x22cb, 0x0), ("leg", 0x22da, 0x0),
    ("leq", 0x2264, 0x0), ("leqq", 0x2266, 0x0), ("leqslant", 0x2a7d, 0x0), ("les", 0x2a7d, 0x0),
    ("lescc", 0x2aa8, 0x0), ("lesdot", 0x2a7f, 0x0), ("lesdoto", 0x2a81, 0x0),
    ("lesdotor", 0x2a83, 0x0), ("lesg", 0x22da, 0xfe00), ("lesges", 0x2a93, 0x0),
    ("lessapprox", 0x2a85, 0x0), ("lessdot", 0x22d6, 0x0), ("lesseqgtr", 0x22da, 0x0),
    ("lesseqqgtr", 0x2a8b, 0x0), ("lessgtr", 0x2276, 0x0), ("lesssim", 0x2272, 0x0),
    ("lfisht", 0x297c, 0x0), ("lfloor", 0x230a, 0x0), ("lfr", 0x1d529, 0x0), ("lg", 0x2276, 0x0),
    ("lgE", 0x2a91, 0x0), ("lhard", 0x21bd, 0x0), ("lharu", 0x21bc, 0x0),
    ("lharul", 0x296a, 0x0), ("lhblk", 0x2584, 0x0), ("ljcy", 0x459, 0x0), ("ll", 0x226a, 0x0),
    ("llarr", 0x21c7, 0x0), ("llcorner", 0x231e, 0x0), ("llhard", 0x296b, 0x0),
    ("lltri", 0x25fa, 0x0), ("lmidot", 0x140, 0x0), ("lmoust", 0x23b0, 0x0),
    ("lmoustache", 0x23b0, 0x0), ("lnE", 0x2268, 0x0), ("lnap", 0x2a89, 0x0),
    ("lnapprox", 0x2a89, 0x0), ("lne", 0x2a87, 0x0), ("lneq", 0x2a87, 0x0),
    ("lneqq", 0x2268, 0x0), ("lnsim", 0x22e6, 0x0), ("loang", 0x27ec, 0x0),
    ("loarr", 0x21fd, 0x0), ("lobrk", 0x27e6, 0x0), ("longleftarrow", 0x27f5, 0x0),
    ("longleftrightarrow", 0x27f7, 0x0), ("longmapsto", 0x27fc, 0x0),
    ("longrightarrow", 0x27f6, 0x0), ("looparrowleft", 0x21ab, 0x0),
    ("looparrowright", 0x21ac, 0x0), ("lopar", 0x2985, 0x0), ("lopf", 0x1d55d, 0x0),
    ("loplus", 0x2a2d, 0x0), ("lotimes", 0x2a34, 0x0), ("lowast", 0x2217, 0x0),
    ("lowbar", 0x5f, 0x0), ("loz", 0x25ca, 0x0), ("lozenge", 0x25ca, 0x0), ("lozf", 0x29eb, 0x0),
    ("lpar", 0x28, 0x0), ("lparlt", 0x2993, 0x0), ("lrarr", 0x21c6, 0x0),
    ("lrcorner", 0x231f, 0x0), ("lrhar", 0x21cb, 0x0), ("lrhard", 0x296d, 0x0),
    ("lrm", 0x200e, 0x0), ("lrtri", 0x22bf, 0x0), ("lsaquo", 0x2039, 0x0),
    ("lscr", 0x1d4c1, 0x0), ("lsh", 0x21b0, 0x0), ("lsim", 0x2272, 0x0), ("lsime", 0x2a8d, 0x0),
    ("lsimg", 0x2a8f, 0x0), ("lsqb", 0x5b, 0x0), ("lsquo", 0x2018, 0x0), ("lsquor", 0x201a, 0x0),
    ("lstrok", 0x142, 0x0), ("lt", 0x3c, 0x0), ("ltcc", 0x2aa6, 0x0), ("ltcir", 0x2a79, 0x0),
    ("ltdot", 0x22d6, 0x0), ("lthree", 0x22cb, 0x0), ("ltimes", 0x22c9, 0x0),
    ("ltlarr", 0x2976, 0x0), ("ltquest", 0x2a7b, 0x0), ("ltrPar", 0x2996, 0x0),
    ("ltri", 0x25c3, 0x0), ("ltrie", 0x22b4, 0x0), ("ltrif", 0x25c2, 0x0),
    ("lurdshar", 0x294a, 0x0), ("luruhar", 0x2966, 0x0), ("lvertneqq", 0x2268, 0xfe00),
    ("lvnE", 0x2268, 0xfe00)
  ]

/-- References from `mDDot` to `nwnear`; the second code point is zero where there is only one. -/
def referencesLowerMToN : Array (String × Nat × Nat) :=
  #[
    ("mDDot", 0x223a, 0x0), ("macr", 0xaf, 0x0), ("male", 0x2642, 0x0), ("malt", 0x2720, 0x0),
    ("maltese", 0x2720, 0x0), ("map", 0x21a6, 0x0), ("mapsto", 0x21a6, 0x0),
    ("mapstodown", 0x21a7, 0x0), ("mapstoleft", 0x21a4, 0x0), ("mapstoup", 0x21a5, 0x0),
    ("marker", 0x25ae, 0x0), ("mcomma", 0x2a29, 0x0), ("mcy", 0x43c, 0x0),
    ("mdash", 0x2014, 0x0), ("measuredangle", 0x2221, 0x0), ("mfr", 0x1d52a, 0x0),
    ("mho", 0x2127, 0x0), ("micro", 0xb5, 0x0), ("mid", 0x2223, 0x0), ("midast", 0x2a, 0x0),
    ("midcir", 0x2af0, 0x0), ("middot", 0xb7, 0x0), ("minus", 0x2212, 0x0),
    ("minusb", 0x229f, 0x0), ("minusd", 0x2238, 0x0), ("minusdu", 0x2a2a, 0x0),
    ("mlcp", 0x2adb, 0x0), ("mldr", 0x2026, 0x0), ("mnplus", 0x2213, 0x0),
    ("models", 0x22a7, 0x0), ("mopf", 0x1d55e, 0x0), ("mp", 0x2213, 0x0), ("mscr", 0x1d4c2, 0x0),
    ("mstpos", 0x223e, 0x0), ("mu", 0x3bc, 0x0), ("multimap", 0x22b8, 0x0),
    ("mumap", 0x22b8, 0x0), ("nGg", 0x22d9, 0x338), ("nGt", 0x226b, 0x20d2),
    ("nGtv", 0x226b, 0x338), ("nLeftarrow", 0x21cd, 0x0), ("nLeftrightarrow", 0x21ce, 0x0),
    ("nLl", 0x22d8, 0x338), ("nLt", 0x226a, 0x20d2), ("nLtv", 0x226a, 0x338),
    ("nRightarrow", 0x21cf, 0x0), ("nVDash", 0x22af, 0x0), ("nVdash", 0x22ae, 0x0),
    ("nabla", 0x2207, 0x0), ("nacute", 0x144, 0x0), ("nang", 0x2220, 0x20d2),
    ("nap", 0x2249, 0x0), ("napE", 0x2a70, 0x338), ("napid", 0x224b, 0x338),
    ("napos", 0x149, 0x0), ("napprox", 0x2249, 0x0), ("natur", 0x266e, 0x0),
    ("natural", 0x266e, 0x0), ("naturals", 0x2115, 0x0), ("nbsp", 0xa0, 0x0),
    ("nbump", 0x224e, 0x338), ("nbumpe", 0x224f, 0x338), ("ncap", 0x2a43, 0x0),
    ("ncaron", 0x148, 0x0), ("ncedil", 0x146, 0x0), ("ncong", 0x2247, 0x0),
    ("ncongdot", 0x2a6d, 0x338), ("ncup", 0x2a42, 0x0), ("ncy", 0x43d, 0x0),
    ("ndash", 0x2013, 0x0), ("ne", 0x2260, 0x0), ("neArr", 0x21d7, 0x0), ("nearhk", 0x2924, 0x0),
    ("nearr", 0x2197, 0x0), ("nearrow", 0x2197, 0x0), ("nedot", 0x2250, 0x338),
    ("nequiv", 0x2262, 0x0), ("nesear", 0x2928, 0x0), ("nesim", 0x2242, 0x338),
    ("nexist", 0x2204, 0x0), ("nexists", 0x2204, 0x0), ("nfr", 0x1d52b, 0x0),
    ("ngE", 0x2267, 0x338), ("nge", 0x2271, 0x0), ("ngeq", 0x2271, 0x0),
    ("ngeqq", 0x2267, 0x338), ("ngeqslant", 0x2a7e, 0x338), ("nges", 0x2a7e, 0x338),
    ("ngsim", 0x2275, 0x0), ("ngt", 0x226f, 0x0), ("ngtr", 0x226f, 0x0), ("nhArr", 0x21ce, 0x0),
    ("nharr", 0x21ae, 0x0), ("nhpar", 0x2af2, 0x0), ("ni", 0x220b, 0x0), ("nis", 0x22fc, 0x0),
    ("nisd", 0x22fa, 0x0), ("niv", 0x220b, 0x0), ("njcy", 0x45a, 0x0), ("nlArr", 0x21cd, 0x0),
    ("nlE", 0x2266, 0x338), ("nlarr", 0x219a, 0x0), ("nldr", 0x2025, 0x0), ("nle", 0x2270, 0x0),
    ("nleftarrow", 0x219a, 0x0), ("nleftrightarrow", 0x21ae, 0x0), ("nleq", 0x2270, 0x0),
    ("nleqq", 0x2266, 0x338), ("nleqslant", 0x2a7d, 0x338), ("nles", 0x2a7d, 0x338),
    ("nless", 0x226e, 0x0), ("nlsim", 0x2274, 0x0), ("nlt", 0x226e, 0x0), ("nltri", 0x22ea, 0x0),
    ("nltrie", 0x22ec, 0x0), ("nmid", 0x2224, 0x0), ("nopf", 0x1d55f, 0x0), ("not", 0xac, 0x0),
    ("notin", 0x2209, 0x0), ("notinE", 0x22f9, 0x338), ("notindot", 0x22f5, 0x338),
    ("notinva", 0x2209, 0x0), ("notinvb", 0x22f7, 0x0), ("notinvc", 0x22f6, 0x0),
    ("notni", 0x220c, 0x0), ("notniva", 0x220c, 0x0), ("notnivb", 0x22fe, 0x0),
    ("notnivc", 0x22fd, 0x0), ("npar", 0x2226, 0x0), ("nparallel", 0x2226, 0x0),
    ("nparsl", 0x2afd, 0x20e5), ("npart", 0x2202, 0x338), ("npolint", 0x2a14, 0x0),
    ("npr", 0x2280, 0x0), ("nprcue", 0x22e0, 0x0), ("npre", 0x2aaf, 0x338),
    ("nprec", 0x2280, 0x0), ("npreceq", 0x2aaf, 0x338), ("nrArr", 0x21cf, 0x0),
    ("nrarr", 0x219b, 0x0), ("nrarrc", 0x2933, 0x338), ("nrarrw", 0x219d, 0x338),
    ("nrightarrow", 0x219b, 0x0), ("nrtri", 0x22eb, 0x0), ("nrtrie", 0x22ed, 0x0),
    ("nsc", 0x2281, 0x0), ("nsccue", 0x22e1, 0x0), ("nsce", 0x2ab0, 0x338),
    ("nscr", 0x1d4c3, 0x0), ("nshortmid", 0x2224, 0x0), ("nshortparallel", 0x2226, 0x0),
    ("nsim", 0x2241, 0x0), ("nsime", 0x2244, 0x0), ("nsimeq", 0x2244, 0x0),
    ("nsmid", 0x2224, 0x0), ("nspar", 0x2226, 0x0), ("nsqsube", 0x22e2, 0x0),
    ("nsqsupe", 0x22e3, 0x0), ("nsub", 0x2284, 0x0), ("nsubE", 0x2ac5, 0x338),
    ("nsube", 0x2288, 0x0), ("nsubset", 0x2282, 0x20d2), ("nsubseteq", 0x2288, 0x0),
    ("nsubseteqq", 0x2ac5, 0x338), ("nsucc", 0x2281, 0x0), ("nsucceq", 0x2ab0, 0x338),
    ("nsup", 0x2285, 0x0), ("nsupE", 0x2ac6, 0x338), ("nsupe", 0x2289, 0x0),
    ("nsupset", 0x2283, 0x20d2), ("nsupseteq", 0x2289, 0x0), ("nsupseteqq", 0x2ac6, 0x338),
    ("ntgl", 0x2279, 0x0), ("ntilde", 0xf1, 0x0), ("ntlg", 0x2278, 0x0),
    ("ntriangleleft", 0x22ea, 0x0), ("ntrianglelefteq", 0x22ec, 0x0),
    ("ntriangleright", 0x22eb, 0x0), ("ntrianglerighteq", 0x22ed, 0x0), ("nu", 0x3bd, 0x0),
    ("num", 0x23, 0x0), ("numero", 0x2116, 0x0), ("numsp", 0x2007, 0x0), ("nvDash", 0x22ad, 0x0),
    ("nvHarr", 0x2904, 0x0), ("nvap", 0x224d, 0x20d2), ("nvdash", 0x22ac, 0x0),
    ("nvge", 0x2265, 0x20d2), ("nvgt", 0x3e, 0x20d2), ("nvinfin", 0x29de, 0x0),
    ("nvlArr", 0x2902, 0x0), ("nvle", 0x2264, 0x20d2), ("nvlt", 0x3c, 0x20d2),
    ("nvltrie", 0x22b4, 0x20d2), ("nvrArr", 0x2903, 0x0), ("nvrtrie", 0x22b5, 0x20d2),
    ("nvsim", 0x223c, 0x20d2), ("nwArr", 0x21d6, 0x0), ("nwarhk", 0x2923, 0x0),
    ("nwarr", 0x2196, 0x0), ("nwarrow", 0x2196, 0x0), ("nwnear", 0x2927, 0x0)
  ]

/-- References from `oS` to `quot`; the second code point is zero where there is only one. -/
def referencesLowerOToQ : Array (String × Nat × Nat) :=
  #[
    ("oS", 0x24c8, 0x0), ("oacute", 0xf3, 0x0), ("oast", 0x229b, 0x0), ("ocir", 0x229a, 0x0),
    ("ocirc", 0xf4, 0x0), ("ocy", 0x43e, 0x0), ("odash", 0x229d, 0x0), ("odblac", 0x151, 0x0),
    ("odiv", 0x2a38, 0x0), ("odot", 0x2299, 0x0), ("odsold", 0x29bc, 0x0), ("oelig", 0x153, 0x0),
    ("ofcir", 0x29bf, 0x0), ("ofr", 0x1d52c, 0x0), ("ogon", 0x2db, 0x0), ("ograve", 0xf2, 0x0),
    ("ogt", 0x29c1, 0x0), ("ohbar", 0x29b5, 0x0), ("ohm", 0x3a9, 0x0), ("oint", 0x222e, 0x0),
    ("olarr", 0x21ba, 0x0), ("olcir", 0x29be, 0x0), ("olcross", 0x29bb, 0x0),
    ("oline", 0x203e, 0x0), ("olt", 0x29c0, 0x0), ("omacr", 0x14d, 0x0), ("omega", 0x3c9, 0x0),
    ("omicron", 0x3bf, 0x0), ("omid", 0x29b6, 0x0), ("ominus", 0x2296, 0x0),
    ("oopf", 0x1d560, 0x0), ("opar", 0x29b7, 0x0), ("operp", 0x29b9, 0x0),
    ("oplus", 0x2295, 0x0), ("or", 0x2228, 0x0), ("orarr", 0x21bb, 0x0), ("ord", 0x2a5d, 0x0),
    ("order", 0x2134, 0x0), ("orderof", 0x2134, 0x0), ("ordf", 0xaa, 0x0), ("ordm", 0xba, 0x0),
    ("origof", 0x22b6, 0x0), ("oror", 0x2a56, 0x0), ("orslope", 0x2a57, 0x0),
    ("orv", 0x2a5b, 0x0), ("oscr", 0x2134, 0x0), ("oslash", 0xf8, 0x0), ("osol", 0x2298, 0x0),
    ("otilde", 0xf5, 0x0), ("otimes", 0x2297, 0x0), ("otimesas", 0x2a36, 0x0),
    ("ouml", 0xf6, 0x0), ("ovbar", 0x233d, 0x0), ("par", 0x2225, 0x0), ("para", 0xb6, 0x0),
    ("parallel", 0x2225, 0x0), ("parsim", 0x2af3, 0x0), ("parsl", 0x2afd, 0x0),
    ("part", 0x2202, 0x0), ("pcy", 0x43f, 0x0), ("percnt", 0x25, 0x0), ("period", 0x2e, 0x0),
    ("permil", 0x2030, 0x0), ("perp", 0x22a5, 0x0), ("pertenk", 0x2031, 0x0),
    ("pfr", 0x1d52d, 0x0), ("phi", 0x3c6, 0x0), ("phiv", 0x3d5, 0x0), ("phmmat", 0x2133, 0x0),
    ("phone", 0x260e, 0x0), ("pi", 0x3c0, 0x0), ("pitchfork", 0x22d4, 0x0), ("piv", 0x3d6, 0x0),
    ("planck", 0x210f, 0x0), ("planckh", 0x210e, 0x0), ("plankv", 0x210f, 0x0),
    ("plus", 0x2b, 0x0), ("plusacir", 0x2a23, 0x0), ("plusb", 0x229e, 0x0),
    ("pluscir", 0x2a22, 0x0), ("plusdo", 0x2214, 0x0), ("plusdu", 0x2a25, 0x0),
    ("pluse", 0x2a72, 0x0), ("plusmn", 0xb1, 0x0), ("plussim", 0x2a26, 0x0),
    ("plustwo", 0x2a27, 0x0), ("pm", 0xb1, 0x0), ("pointint", 0x2a15, 0x0),
    ("popf", 0x1d561, 0x0), ("pound", 0xa3, 0x0), ("pr", 0x227a, 0x0), ("prE", 0x2ab3, 0x0),
    ("prap", 0x2ab7, 0x0), ("prcue", 0x227c, 0x0), ("pre", 0x2aaf, 0x0), ("prec", 0x227a, 0x0),
    ("precapprox", 0x2ab7, 0x0), ("preccurlyeq", 0x227c, 0x0), ("preceq", 0x2aaf, 0x0),
    ("precnapprox", 0x2ab9, 0x0), ("precneqq", 0x2ab5, 0x0), ("precnsim", 0x22e8, 0x0),
    ("precsim", 0x227e, 0x0), ("prime", 0x2032, 0x0), ("primes", 0x2119, 0x0),
    ("prnE", 0x2ab5, 0x0), ("prnap", 0x2ab9, 0x0), ("prnsim", 0x22e8, 0x0),
    ("prod", 0x220f, 0x0), ("profalar", 0x232e, 0x0), ("profline", 0x2312, 0x0),
    ("profsurf", 0x2313, 0x0), ("prop", 0x221d, 0x0), ("propto", 0x221d, 0x0),
    ("prsim", 0x227e, 0x0), ("prurel", 0x22b0, 0x0), ("pscr", 0x1d4c5, 0x0), ("psi", 0x3c8, 0x0),
    ("puncsp", 0x2008, 0x0), ("qfr", 0x1d52e, 0x0), ("qint", 0x2a0c, 0x0),
    ("qopf", 0x1d562, 0x0), ("qprime", 0x2057, 0x0), ("qscr", 0x1d4c6, 0x0),
    ("quaternions", 0x210d, 0x0), ("quatint", 0x2a16, 0x0), ("quest", 0x3f, 0x0),
    ("questeq", 0x225f, 0x0), ("quot", 0x22, 0x0)
  ]

/-- References from `rAarr` to `rx`; the second code point is zero where there is only one. -/
def referencesLowerRToR : Array (String × Nat × Nat) :=
  #[
    ("rAarr", 0x21db, 0x0), ("rArr", 0x21d2, 0x0), ("rAtail", 0x291c, 0x0),
    ("rBarr", 0x290f, 0x0), ("rHar", 0x2964, 0x0), ("race", 0x223d, 0x331),
    ("racute", 0x155, 0x0), ("radic", 0x221a, 0x0), ("raemptyv", 0x29b3, 0x0),
    ("rang", 0x27e9, 0x0), ("rangd", 0x2992, 0x0), ("range", 0x29a5, 0x0),
    ("rangle", 0x27e9, 0x0), ("raquo", 0xbb, 0x0), ("rarr", 0x2192, 0x0),
    ("rarrap", 0x2975, 0x0), ("rarrb", 0x21e5, 0x0), ("rarrbfs", 0x2920, 0x0),
    ("rarrc", 0x2933, 0x0), ("rarrfs", 0x291e, 0x0), ("rarrhk", 0x21aa, 0x0),
    ("rarrlp", 0x21ac, 0x0), ("rarrpl", 0x2945, 0x0), ("rarrsim", 0x2974, 0x0),
    ("rarrtl", 0x21a3, 0x0), ("rarrw", 0x219d, 0x0), ("ratail", 0x291a, 0x0),
    ("ratio", 0x2236, 0x0), ("rationals", 0x211a, 0x0), ("rbarr", 0x290d, 0x0),
    ("rbbrk", 0x2773, 0x0), ("rbrace", 0x7d, 0x0), ("rbrack", 0x5d, 0x0), ("rbrke", 0x298c, 0x0),
    ("rbrksld", 0x298e, 0x0), ("rbrkslu", 0x2990, 0x0), ("rcaron", 0x159, 0x0),
    ("rcedil", 0x157, 0x0), ("rceil", 0x2309, 0x0), ("rcub", 0x7d, 0x0), ("rcy", 0x440, 0x0),
    ("rdca", 0x2937, 0x0), ("rdldhar", 0x2969, 0x0), ("rdquo", 0x201d, 0x0),
    ("rdquor", 0x201d, 0x0), ("rdsh", 0x21b3, 0x0), ("real", 0x211c, 0x0),
    ("realine", 0x211b, 0x0), ("realpart", 0x211c, 0x0), ("reals", 0x211d, 0x0),
    ("rect", 0x25ad, 0x0), ("reg", 0xae, 0x0), ("rfisht", 0x297d, 0x0), ("rfloor", 0x230b, 0x0),
    ("rfr", 0x1d52f, 0x0), ("rhard", 0x21c1, 0x0), ("rharu", 0x21c0, 0x0),
    ("rharul", 0x296c, 0x0), ("rho", 0x3c1, 0x0), ("rhov", 0x3f1, 0x0),
    ("rightarrow", 0x2192, 0x0), ("rightarrowtail", 0x21a3, 0x0),
    ("rightharpoondown", 0x21c1, 0x0), ("rightharpoonup", 0x21c0, 0x0),
    ("rightleftarrows", 0x21c4, 0x0), ("rightleftharpoons", 0x21cc, 0x0),
    ("rightrightarrows", 0x21c9, 0x0), ("rightsquigarrow", 0x219d, 0x0),
    ("rightthreetimes", 0x22cc, 0x0), ("ring", 0x2da, 0x0), ("risingdotseq", 0x2253, 0x0),
    ("rlarr", 0x21c4, 0x0), ("rlhar", 0x21cc, 0x0), ("rlm", 0x200f, 0x0),
    ("rmoust", 0x23b1, 0x0), ("rmoustache", 0x23b1, 0x0), ("rnmid", 0x2aee, 0x0),
    ("roang", 0x27ed, 0x0), ("roarr", 0x21fe, 0x0), ("robrk", 0x27e7, 0x0),
    ("ropar", 0x2986, 0x0), ("ropf", 0x1d563, 0x0), ("roplus", 0x2a2e, 0x0),
    ("rotimes", 0x2a35, 0x0), ("rpar", 0x29, 0x0), ("rpargt", 0x2994, 0x0),
    ("rppolint", 0x2a12, 0x0), ("rrarr", 0x21c9, 0x0), ("rsaquo", 0x203a, 0x0),
    ("rscr", 0x1d4c7, 0x0), ("rsh", 0x21b1, 0x0), ("rsqb", 0x5d, 0x0), ("rsquo", 0x2019, 0x0),
    ("rsquor", 0x2019, 0x0), ("rthree", 0x22cc, 0x0), ("rtimes", 0x22ca, 0x0),
    ("rtri", 0x25b9, 0x0), ("rtrie", 0x22b5, 0x0), ("rtrif", 0x25b8, 0x0),
    ("rtriltri", 0x29ce, 0x0), ("ruluhar", 0x2968, 0x0), ("rx", 0x211e, 0x0)
  ]

/-- References from `sacute` to `szlig`; the second code point is zero where there is only one. -/
def referencesLowerSToS : Array (String × Nat × Nat) :=
  #[
    ("sacute", 0x15b, 0x0), ("sbquo", 0x201a, 0x0), ("sc", 0x227b, 0x0), ("scE", 0x2ab4, 0x0),
    ("scap", 0x2ab8, 0x0), ("scaron", 0x161, 0x0), ("sccue", 0x227d, 0x0), ("sce", 0x2ab0, 0x0),
    ("scedil", 0x15f, 0x0), ("scirc", 0x15d, 0x0), ("scnE", 0x2ab6, 0x0), ("scnap", 0x2aba, 0x0),
    ("scnsim", 0x22e9, 0x0), ("scpolint", 0x2a13, 0x0), ("scsim", 0x227f, 0x0),
    ("scy", 0x441, 0x0), ("sdot", 0x22c5, 0x0), ("sdotb", 0x22a1, 0x0), ("sdote", 0x2a66, 0x0),
    ("seArr", 0x21d8, 0x0), ("searhk", 0x2925, 0x0), ("searr", 0x2198, 0x0),
    ("searrow", 0x2198, 0x0), ("sect", 0xa7, 0x0), ("semi", 0x3b, 0x0), ("seswar", 0x2929, 0x0),
    ("setminus", 0x2216, 0x0), ("setmn", 0x2216, 0x0), ("sext", 0x2736, 0x0),
    ("sfr", 0x1d530, 0x0), ("sfrown", 0x2322, 0x0), ("sharp", 0x266f, 0x0),
    ("shchcy", 0x449, 0x0), ("shcy", 0x448, 0x0), ("shortmid", 0x2223, 0x0),
    ("shortparallel", 0x2225, 0x0), ("shy", 0xad, 0x0), ("sigma", 0x3c3, 0x0),
    ("sigmaf", 0x3c2, 0x0), ("sigmav", 0x3c2, 0x0), ("sim", 0x223c, 0x0),
    ("simdot", 0x2a6a, 0x0), ("sime", 0x2243, 0x0), ("simeq", 0x2243, 0x0),
    ("simg", 0x2a9e, 0x0), ("simgE", 0x2aa0, 0x0), ("siml", 0x2a9d, 0x0), ("simlE", 0x2a9f, 0x0),
    ("simne", 0x2246, 0x0), ("simplus", 0x2a24, 0x0), ("simrarr", 0x2972, 0x0),
    ("slarr", 0x2190, 0x0), ("smallsetminus", 0x2216, 0x0), ("smashp", 0x2a33, 0x0),
    ("smeparsl", 0x29e4, 0x0), ("smid", 0x2223, 0x0), ("smile", 0x2323, 0x0),
    ("smt", 0x2aaa, 0x0), ("smte", 0x2aac, 0x0), ("smtes", 0x2aac, 0xfe00),
    ("softcy", 0x44c, 0x0), ("sol", 0x2f, 0x0), ("solb", 0x29c4, 0x0), ("solbar", 0x233f, 0x0),
    ("sopf", 0x1d564, 0x0), ("spades", 0x2660, 0x0), ("spadesuit", 0x2660, 0x0),
    ("spar", 0x2225, 0x0), ("sqcap", 0x2293, 0x0), ("sqcaps", 0x2293, 0xfe00),
    ("sqcup", 0x2294, 0x0), ("sqcups", 0x2294, 0xfe00), ("sqsub", 0x228f, 0x0),
    ("sqsube", 0x2291, 0x0), ("sqsubset", 0x228f, 0x0), ("sqsubseteq", 0x2291, 0x0),
    ("sqsup", 0x2290, 0x0), ("sqsupe", 0x2292, 0x0), ("sqsupset", 0x2290, 0x0),
    ("sqsupseteq", 0x2292, 0x0), ("squ", 0x25a1, 0x0), ("square", 0x25a1, 0x0),
    ("squarf", 0x25aa, 0x0), ("squf", 0x25aa, 0x0), ("srarr", 0x2192, 0x0),
    ("sscr", 0x1d4c8, 0x0), ("ssetmn", 0x2216, 0x0), ("ssmile", 0x2323, 0x0),
    ("sstarf", 0x22c6, 0x0), ("star", 0x2606, 0x0), ("starf", 0x2605, 0x0),
    ("straightepsilon", 0x3f5, 0x0), ("straightphi", 0x3d5, 0x0), ("strns", 0xaf, 0x0),
    ("sub", 0x2282, 0x0), ("subE", 0x2ac5, 0x0), ("subdot", 0x2abd, 0x0), ("sube", 0x2286, 0x0),
    ("subedot", 0x2ac3, 0x0), ("submult", 0x2ac1, 0x0), ("subnE", 0x2acb, 0x0),
    ("subne", 0x228a, 0x0), ("subplus", 0x2abf, 0x0), ("subrarr", 0x2979, 0x0),
    ("subset", 0x2282, 0x0), ("subseteq", 0x2286, 0x0), ("subseteqq", 0x2ac5, 0x0),
    ("subsetneq", 0x228a, 0x0), ("subsetneqq", 0x2acb, 0x0), ("subsim", 0x2ac7, 0x0),
    ("subsub", 0x2ad5, 0x0), ("subsup", 0x2ad3, 0x0), ("succ", 0x227b, 0x0),
    ("succapprox", 0x2ab8, 0x0), ("succcurlyeq", 0x227d, 0x0), ("succeq", 0x2ab0, 0x0),
    ("succnapprox", 0x2aba, 0x0), ("succneqq", 0x2ab6, 0x0), ("succnsim", 0x22e9, 0x0),
    ("succsim", 0x227f, 0x0), ("sum", 0x2211, 0x0), ("sung", 0x266a, 0x0), ("sup", 0x2283, 0x0),
    ("sup1", 0xb9, 0x0), ("sup2", 0xb2, 0x0), ("sup3", 0xb3, 0x0), ("supE", 0x2ac6, 0x0),
    ("supdot", 0x2abe, 0x0), ("supdsub", 0x2ad8, 0x0), ("supe", 0x2287, 0x0),
    ("supedot", 0x2ac4, 0x0), ("suphsol", 0x27c9, 0x0), ("suphsub", 0x2ad7, 0x0),
    ("suplarr", 0x297b, 0x0), ("supmult", 0x2ac2, 0x0), ("supnE", 0x2acc, 0x0),
    ("supne", 0x228b, 0x0), ("supplus", 0x2ac0, 0x0), ("supset", 0x2283, 0x0),
    ("supseteq", 0x2287, 0x0), ("supseteqq", 0x2ac6, 0x0), ("supsetneq", 0x228b, 0x0),
    ("supsetneqq", 0x2acc, 0x0), ("supsim", 0x2ac8, 0x0), ("supsub", 0x2ad4, 0x0),
    ("supsup", 0x2ad6, 0x0), ("swArr", 0x21d9, 0x0), ("swarhk", 0x2926, 0x0),
    ("swarr", 0x2199, 0x0), ("swarrow", 0x2199, 0x0), ("swnwar", 0x292a, 0x0),
    ("szlig", 0xdf, 0x0)
  ]

/-- References from `target` to `zwnj`; the second code point is zero where there is only one. -/
def referencesLowerTToZ : Array (String × Nat × Nat) :=
  #[
    ("target", 0x2316, 0x0), ("tau", 0x3c4, 0x0), ("tbrk", 0x23b4, 0x0), ("tcaron", 0x165, 0x0),
    ("tcedil", 0x163, 0x0), ("tcy", 0x442, 0x0), ("tdot", 0x20db, 0x0), ("telrec", 0x2315, 0x0),
    ("tfr", 0x1d531, 0x0), ("there4", 0x2234, 0x0), ("therefore", 0x2234, 0x0),
    ("theta", 0x3b8, 0x0), ("thetasym", 0x3d1, 0x0), ("thetav", 0x3d1, 0x0),
    ("thickapprox", 0x2248, 0x0), ("thicksim", 0x223c, 0x0), ("thinsp", 0x2009, 0x0),
    ("thkap", 0x2248, 0x0), ("thksim", 0x223c, 0x0), ("thorn", 0xfe, 0x0), ("tilde", 0x2dc, 0x0),
    ("times", 0xd7, 0x0), ("timesb", 0x22a0, 0x0), ("timesbar", 0x2a31, 0x0),
    ("timesd", 0x2a30, 0x0), ("tint", 0x222d, 0x0), ("toea", 0x2928, 0x0), ("top", 0x22a4, 0x0),
    ("topbot", 0x2336, 0x0), ("topcir", 0x2af1, 0x0), ("topf", 0x1d565, 0x0),
    ("topfork", 0x2ada, 0x0), ("tosa", 0x2929, 0x0), ("tprime", 0x2034, 0x0),
    ("trade", 0x2122, 0x0), ("triangle", 0x25b5, 0x0), ("triangledown", 0x25bf, 0x0),
    ("triangleleft", 0x25c3, 0x0), ("trianglelefteq", 0x22b4, 0x0), ("triangleq", 0x225c, 0x0),
    ("triangleright", 0x25b9, 0x0), ("trianglerighteq", 0x22b5, 0x0), ("tridot", 0x25ec, 0x0),
    ("trie", 0x225c, 0x0), ("triminus", 0x2a3a, 0x0), ("triplus", 0x2a39, 0x0),
    ("trisb", 0x29cd, 0x0), ("tritime", 0x2a3b, 0x0), ("trpezium", 0x23e2, 0x0),
    ("tscr", 0x1d4c9, 0x0), ("tscy", 0x446, 0x0), ("tshcy", 0x45b, 0x0), ("tstrok", 0x167, 0x0),
    ("twixt", 0x226c, 0x0), ("twoheadleftarrow", 0x219e, 0x0),
    ("twoheadrightarrow", 0x21a0, 0x0), ("uArr", 0x21d1, 0x0), ("uHar", 0x2963, 0x0),
    ("uacute", 0xfa, 0x0), ("uarr", 0x2191, 0x0), ("ubrcy", 0x45e, 0x0), ("ubreve", 0x16d, 0x0),
    ("ucirc", 0xfb, 0x0), ("ucy", 0x443, 0x0), ("udarr", 0x21c5, 0x0), ("udblac", 0x171, 0x0),
    ("udhar", 0x296e, 0x0), ("ufisht", 0x297e, 0x0), ("ufr", 0x1d532, 0x0),
    ("ugrave", 0xf9, 0x0), ("uharl", 0x21bf, 0x0), ("uharr", 0x21be, 0x0),
    ("uhblk", 0x2580, 0x0), ("ulcorn", 0x231c, 0x0), ("ulcorner", 0x231c, 0x0),
    ("ulcrop", 0x230f, 0x0), ("ultri", 0x25f8, 0x0), ("umacr", 0x16b, 0x0), ("uml", 0xa8, 0x0),
    ("uogon", 0x173, 0x0), ("uopf", 0x1d566, 0x0), ("uparrow", 0x2191, 0x0),
    ("updownarrow", 0x2195, 0x0), ("upharpoonleft", 0x21bf, 0x0),
    ("upharpoonright", 0x21be, 0x0), ("uplus", 0x228e, 0x0), ("upsi", 0x3c5, 0x0),
    ("upsih", 0x3d2, 0x0), ("upsilon", 0x3c5, 0x0), ("upuparrows", 0x21c8, 0x0),
    ("urcorn", 0x231d, 0x0), ("urcorner", 0x231d, 0x0), ("urcrop", 0x230e, 0x0),
    ("uring", 0x16f, 0x0), ("urtri", 0x25f9, 0x0), ("uscr", 0x1d4ca, 0x0),
    ("utdot", 0x22f0, 0x0), ("utilde", 0x169, 0x0), ("utri", 0x25b5, 0x0),
    ("utrif", 0x25b4, 0x0), ("uuarr", 0x21c8, 0x0), ("uuml", 0xfc, 0x0),
    ("uwangle", 0x29a7, 0x0), ("vArr", 0x21d5, 0x0), ("vBar", 0x2ae8, 0x0),
    ("vBarv", 0x2ae9, 0x0), ("vDash", 0x22a8, 0x0), ("vangrt", 0x299c, 0x0),
    ("varepsilon", 0x3f5, 0x0), ("varkappa", 0x3f0, 0x0), ("varnothing", 0x2205, 0x0),
    ("varphi", 0x3d5, 0x0), ("varpi", 0x3d6, 0x0), ("varpropto", 0x221d, 0x0),
    ("varr", 0x2195, 0x0), ("varrho", 0x3f1, 0x0), ("varsigma", 0x3c2, 0x0),
    ("varsubsetneq", 0x228a, 0xfe00), ("varsubsetneqq", 0x2acb, 0xfe00),
    ("varsupsetneq", 0x228b, 0xfe00), ("varsupsetneqq", 0x2acc, 0xfe00),
    ("vartheta", 0x3d1, 0x0), ("vartriangleleft", 0x22b2, 0x0),
    ("vartriangleright", 0x22b3, 0x0), ("vcy", 0x432, 0x0), ("vdash", 0x22a2, 0x0),
    ("vee", 0x2228, 0x0), ("veebar", 0x22bb, 0x0), ("veeeq", 0x225a, 0x0),
    ("vellip", 0x22ee, 0x0), ("verbar", 0x7c, 0x0), ("vert", 0x7c, 0x0), ("vfr", 0x1d533, 0x0),
    ("vltri", 0x22b2, 0x0), ("vnsub", 0x2282, 0x20d2), ("vnsup", 0x2283, 0x20d2),
    ("vopf", 0x1d567, 0x0), ("vprop", 0x221d, 0x0), ("vrtri", 0x22b3, 0x0),
    ("vscr", 0x1d4cb, 0x0), ("vsubnE", 0x2acb, 0xfe00), ("vsubne", 0x228a, 0xfe00),
    ("vsupnE", 0x2acc, 0xfe00), ("vsupne", 0x228b, 0xfe00), ("vzigzag", 0x299a, 0x0),
    ("wcirc", 0x175, 0x0), ("wedbar", 0x2a5f, 0x0), ("wedge", 0x2227, 0x0),
    ("wedgeq", 0x2259, 0x0), ("weierp", 0x2118, 0x0), ("wfr", 0x1d534, 0x0),
    ("wopf", 0x1d568, 0x0), ("wp", 0x2118, 0x0), ("wr", 0x2240, 0x0), ("wreath", 0x2240, 0x0),
    ("wscr", 0x1d4cc, 0x0), ("xcap", 0x22c2, 0x0), ("xcirc", 0x25ef, 0x0), ("xcup", 0x22c3, 0x0),
    ("xdtri", 0x25bd, 0x0), ("xfr", 0x1d535, 0x0), ("xhArr", 0x27fa, 0x0),
    ("xharr", 0x27f7, 0x0), ("xi", 0x3be, 0x0), ("xlArr", 0x27f8, 0x0), ("xlarr", 0x27f5, 0x0),
    ("xmap", 0x27fc, 0x0), ("xnis", 0x22fb, 0x0), ("xodot", 0x2a00, 0x0), ("xopf", 0x1d569, 0x0),
    ("xoplus", 0x2a01, 0x0), ("xotime", 0x2a02, 0x0), ("xrArr", 0x27f9, 0x0),
    ("xrarr", 0x27f6, 0x0), ("xscr", 0x1d4cd, 0x0), ("xsqcup", 0x2a06, 0x0),
    ("xuplus", 0x2a04, 0x0), ("xutri", 0x25b3, 0x0), ("xvee", 0x22c1, 0x0),
    ("xwedge", 0x22c0, 0x0), ("yacute", 0xfd, 0x0), ("yacy", 0x44f, 0x0), ("ycirc", 0x177, 0x0),
    ("ycy", 0x44b, 0x0), ("yen", 0xa5, 0x0), ("yfr", 0x1d536, 0x0), ("yicy", 0x457, 0x0),
    ("yopf", 0x1d56a, 0x0), ("yscr", 0x1d4ce, 0x0), ("yucy", 0x44e, 0x0), ("yuml", 0xff, 0x0),
    ("zacute", 0x17a, 0x0), ("zcaron", 0x17e, 0x0), ("zcy", 0x437, 0x0), ("zdot", 0x17c, 0x0),
    ("zeetrf", 0x2128, 0x0), ("zeta", 0x3b6, 0x0), ("zfr", 0x1d537, 0x0), ("zhcy", 0x436, 0x0),
    ("zigrarr", 0x21dd, 0x0), ("zopf", 0x1d56b, 0x0), ("zscr", 0x1d4cf, 0x0),
    ("zwj", 0x200d, 0x0), ("zwnj", 0x200c, 0x0)
  ]

/-- All named references, in parts by their first letter. -/
def namedReferences : List (Array (String × Nat × Nat)) :=
  [
    referencesUpperAToC, referencesUpperDToH, referencesUpperIToM, referencesUpperNToR,
    referencesUpperSToZ, referencesLowerAToB, referencesLowerCToD, referencesLowerEToG,
    referencesLowerHToL, referencesLowerMToN, referencesLowerOToQ, referencesLowerRToR,
    referencesLowerSToS, referencesLowerTToZ
  ]

def namedReference? (name : String) : Option (List Char) :=
  namedReferences.findSome? fun part =>
    (part.find? fun entry => entry.1 == name).map fun entry =>
      Char.ofNat entry.2.1 :: (if entry.2.2 == 0 then [] else [Char.ofNat entry.2.2])

end Folio.Markdown
