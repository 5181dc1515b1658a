import OberonFront.Token.Basic

/-!
# The terminals of Umbriel

The kinds of tokens by number, their names, and the reserved words among them.
Literals come in four kinds, and some operators in two spellings.
-/

namespace OberonFront.Umbriel

abbrev ident : Kind := 1
/-- A character by its number, as in `41C`. -/
abbrev char : Kind := 2
abbrev integer : Kind := 3
/-- A number with a decimal point and perhaps an exponent. -/
abbrev real : Kind := 4
/-- Text between single or double quotes.  The quotes are part of the token. -/
abbrev string : Kind := 5
abbrev kwModule : Kind := 6
abbrev semicolon : Kind := 7
abbrev period : Kind := 8
abbrev kwBegin : Kind := 9
abbrev kwEnd : Kind := 10
abbrev kwConst : Kind := 11
abbrev kwType : Kind := 12
abbrev kwVar : Kind := 13
abbrev equal : Kind := 14
abbrev kwArray : Kind := 15
abbrev comma : Kind := 16
abbrev kwOf : Kind := 17
abbrev leftBracket : Kind := 18
/-- Two points. -/
abbrev upTo : Kind := 19
abbrev rightBracket : Kind := 20
abbrev kwRecord : Kind := 21
abbrev colon : Kind := 22
abbrev kwProcedure : Kind := 23
abbrev leftParen : Kind := 24
abbrev rightParen : Kind := 25
abbrev becomes : Kind := 26
abbrev kwIf : Kind := 27
abbrev kwThen : Kind := 28
abbrev kwElsif : Kind := 29
abbrev kwElse : Kind := 30
abbrev kwCase : Kind := 31
abbrev bar : Kind := 32
abbrev kwWhile : Kind := 33
abbrev kwDo : Kind := 34
abbrev kwRepeat : Kind := 35
abbrev kwUntil : Kind := 36
abbrev kwFor : Kind := 37
abbrev kwTo : Kind := 38
abbrev kwBy : Kind := 39
abbrev kwLoop : Kind := 40
abbrev kwExit : Kind := 41
abbrev kwReturn : Kind := 42
abbrev plus : Kind := 43
abbrev minus : Kind := 44
abbrev kwNot : Kind := 45
/-- Another spelling of `NOT`. -/
abbrev tilde : Kind := 46
abbrev times : Kind := 47
abbrev slash : Kind := 48
abbrev kwDiv : Kind := 49
abbrev kwMod : Kind := 50
abbrev kwAnd : Kind := 51
/-- Another spelling of `AND`. -/
abbrev ampersand : Kind := 52
abbrev kwOr : Kind := 53
/-- One of the two spellings of "unequal". -/
abbrev hash : Kind := 54
/-- The other spelling of "unequal", `<>`. -/
abbrev diamond : Kind := 55
abbrev less : Kind := 56
abbrev lessEqual : Kind := 57
abbrev greater : Kind := 58
abbrev greaterEqual : Kind := 59
/-- Characters that are no token of the language.  No production accepts them. -/
abbrev unknown : Kind := 60

abbrev maxKind : Kind := unknown

def terminalNames : List String :=
  ["EOF", "identifier", "char", "integer", "real", "string", "\"MODULE\"", "\";\"", "\".\"",
    "\"BEGIN\"", "\"END\"", "\"CONST\"", "\"TYPE\"", "\"VAR\"", "\"=\"", "\"ARRAY\"", "\",\"",
    "\"OF\"", "\"[\"", "\"..\"", "\"]\"", "\"RECORD\"", "\":\"", "\"PROCEDURE\"", "\"(\"",
    "\")\"", "\":=\"", "\"IF\"", "\"THEN\"", "\"ELSIF\"", "\"ELSE\"", "\"CASE\"", "\"|\"",
    "\"WHILE\"", "\"DO\"", "\"REPEAT\"", "\"UNTIL\"", "\"FOR\"", "\"TO\"", "\"BY\"", "\"LOOP\"",
    "\"EXIT\"", "\"RETURN\"", "\"+\"", "\"-\"", "\"NOT\"", "\"~\"", "\"*\"", "\"/\"", "\"DIV\"",
    "\"MOD\"", "\"AND\"", "\"&\"", "\"OR\"", "\"#\"", "\"<>\"", "\"<\"", "\"<=\"", "\">\"",
    "\">=\"", "???"]

def reservedWords : List (String × Kind) :=
  [("MODULE", kwModule), ("BEGIN", kwBegin), ("END", kwEnd), ("CONST", kwConst),
    ("TYPE", kwType), ("VAR", kwVar), ("ARRAY", kwArray), ("OF", kwOf), ("RECORD", kwRecord),
    ("PROCEDURE", kwProcedure), ("IF", kwIf), ("THEN", kwThen), ("ELSIF", kwElsif),
    ("ELSE", kwElse), ("CASE", kwCase), ("WHILE", kwWhile), ("DO", kwDo), ("REPEAT", kwRepeat),
    ("UNTIL", kwUntil), ("FOR", kwFor), ("TO", kwTo), ("BY", kwBy), ("LOOP", kwLoop),
    ("EXIT", kwExit), ("RETURN", kwReturn), ("NOT", kwNot), ("DIV", kwDiv), ("MOD", kwMod),
    ("AND", kwAnd), ("OR", kwOr)]

end OberonFront.Umbriel
