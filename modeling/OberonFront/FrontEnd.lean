import OberonFront.Lexicon.Scan
import OberonFront.Oberon0.Lexicon
import OberonFront.Oberon0.Productions
import OberonFront.Umbriel.Lexicon
import OberonFront.Umbriel.Productions

/-!
# Front ends

The two languages, each with its words, its tables and its grammar.  A front end
turns a text into tokens and checks whether they make a program.
-/

namespace OberonFront

inductive FrontEnd where
  | oberon0
  | umbriel
deriving DecidableEq, Repr

namespace FrontEnd

/-- The front end of a name.  Neither case nor hyphens matter. -/
def ofName? (name : String) : Option FrontEnd :=
  let plain := String.ofList ((name.toList.filter (· != '-')).map Char.toLower)
  if plain = "oberon0" then some .oberon0
  else if plain = "umbriel" then some .umbriel
  else none

def lexicon : FrontEnd → Lexicon
  | .oberon0 => Oberon0.lexicon
  | .umbriel => Umbriel.lexicon

def tables : FrontEnd → Tables
  | .oberon0 => Oberon0.tables
  | .umbriel => Umbriel.tables

def name (e : FrontEnd) : String := e.tables.name

/-- Lets a parser do what the start production says, and nothing else. -/
def execStart (e : FrontEnd) (p : Parser) : Parser × Except Fault Unit :=
  match e with
  | .oberon0 => Oberon0.grammar.exec (.call Oberon0.grammar.start) p
  | .umbriel => Umbriel.grammar.exec (.call Umbriel.grammar.start) p

def parse (e : FrontEnd) (p : Parser) : Parser × Except Fault Unit :=
  match e with
  | .oberon0 => Oberon0.grammar.parse p
  | .umbriel => Umbriel.grammar.parse p

def lex (e : FrontEnd) (source : String) : TokenList := e.lexicon.lex source

/-- Parses a text and reports to a queue.  The answer is whether there was no error in this
text. -/
def parseInto (e : FrontEnd) (source : String) (q : Queue) : Bool × Queue :=
  let p := (e.parse (.ofTokens e.tables (e.lex source) q)).1
  (p.successful, p.queue)

/-- The problems in a text, in the order in which they were found.  A program has none. -/
def check (e : FrontEnd) (source : String) : List Diagnostic :=
  (e.parseInto source (.keeping "")).2.summarize.1

end FrontEnd

end OberonFront
