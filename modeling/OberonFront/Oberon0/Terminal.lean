import OberonFront.Token.Basic

/-!
# The terminals of Oberon-0

The kinds of tokens by number, their names, and the reserved words among them.
-/

namespace OberonFront.Oberon0

abbrev ident : Kind := 1
abbrev number : Kind := 2
abbrev kwModule : Kind := 3
abbrev semicolon : Kind := 4
abbrev kwBegin : Kind := 5
abbrev kwEnd : Kind := 6
abbrev period : Kind := 7
abbrev kwConst : Kind := 8
abbrev equal : Kind := 9
abbrev kwType : Kind := 10
abbrev kwVar : Kind := 11
abbrev colon : Kind := 12
abbrev comma : Kind := 13
abbrev kwArray : Kind := 14
abbrev kwOf : Kind := 15
abbrev kwRecord : Kind := 16
abbrev kwProcedure : Kind := 17
abbrev leftParen : Kind := 18
abbrev rightParen : Kind := 19
abbrev unequal : Kind := 20
abbrev less : Kind := 21
abbrev lessEqual : Kind := 22
abbrev greater : Kind := 23
abbrev greaterEqual : Kind := 24
abbrev plus : Kind := 25
abbrev minus : Kind := 26
abbrev kwOr : Kind := 27
abbrev times : Kind := 28
abbrev kwDiv : Kind := 29
abbrev kwMod : Kind := 30
abbrev ampersand : Kind := 31
abbrev tilde : Kind := 32
abbrev leftBracket : Kind := 33
abbrev rightBracket : Kind := 34
abbrev kwIf : Kind := 35
abbrev kwThen : Kind := 36
abbrev kwElsif : Kind := 37
abbrev kwElse : Kind := 38
abbrev kwWhile : Kind := 39
abbrev kwDo : Kind := 40
abbrev kwRepeat : Kind := 41
abbrev kwUntil : Kind := 42
abbrev becomes : Kind := 43
/-- Characters that are no token of the language.  No production accepts them. -/
abbrev unknown : Kind := 44

abbrev maxKind : Kind := unknown

def terminalNames : List String :=
  ["EOF", "identifier", "number", "\"MODULE\"", "\";\"", "\"BEGIN\"", "\"END\"", "\".\"",
    "\"CONST\"", "\"=\"", "\"TYPE\"", "\"VAR\"", "\":\"", "\",\"", "\"ARRAY\"", "\"OF\"",
    "\"RECORD\"", "\"PROCEDURE\"", "\"(\"", "\")\"", "\"#\"", "\"<\"", "\"<=\"", "\">\"",
    "\">=\"", "\"+\"", "\"-\"", "\"OR\"", "\"*\"", "\"DIV\"", "\"MOD\"", "\"&\"", "\"~\"",
    "\"[\"", "\"]\"", "\"IF\"", "\"THEN\"", "\"ELSIF\"", "\"ELSE\"", "\"WHILE\"", "\"DO\"",
    "\"REPEAT\"", "\"UNTIL\"", "\":=\"", "???"]

def reservedWords : List (String × Kind) :=
  [("MODULE", kwModule), ("BEGIN", kwBegin), ("END", kwEnd), ("CONST", kwConst),
    ("TYPE", kwType), ("VAR", kwVar), ("ARRAY", kwArray), ("OF", kwOf), ("RECORD", kwRecord),
    ("PROCEDURE", kwProcedure), ("OR", kwOr), ("DIV", kwDiv), ("MOD", kwMod), ("IF", kwIf),
    ("THEN", kwThen), ("ELSIF", kwElsif), ("ELSE", kwElse), ("WHILE", kwWhile), ("DO", kwDo),
    ("REPEAT", kwRepeat), ("UNTIL", kwUntil)]

end OberonFront.Oberon0
