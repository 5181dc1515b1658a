import OberonFront.Main
import OberonFront.Proofs.Ebnf.Basic
import OberonFront.Proofs.Machine.Steps
import OberonFront.Proofs.Machine.Pace
import OberonFront.Proofs.Machine.Check
import OberonFront.Proofs.Oberon0.Grammar
import OberonFront.Proofs.Umbriel.Grammar
import OberonFront.Proofs.Lexicon.Tokens
import OberonFront.Proofs.Lexicon.Munch
import OberonFront.Proofs.Machine.Verdict
import OberonFront.Proofs.FrontEnd.Analysis
import OberonFront.Proofs.FrontEnd.Verdict
import OberonFront.Proofs.Ebnf.Context
import OberonFront.Proofs.Machine.Reading
import OberonFront.Proofs.Machine.Recovery
import OberonFront.Proofs.Oberon0.Omission
import OberonFront.Proofs.Oberon0.Recovery
import OberonFront.Proofs.Text.Lines
import OberonFront.Proofs.Lexicon.Gap
import OberonFront.Proofs.Lexicon.Cover
import OberonFront.Proofs.Lexicon.Place
import OberonFront.Proofs.Parser.Events
import OberonFront.Proofs.Machine.History
import OberonFront.Proofs.Machine.Guard
import OberonFront.Proofs.FrontEnd.Consumption
import OberonFront.Proofs.Parser.Spacing
import OberonFront.Proofs.FrontEnd.Spacing
import OberonFront.Proofs.Lexicon.Cut
import OberonFront.Proofs.Lexicon.Lexeme
import OberonFront.Proofs.Umbriel.Automaton
import OberonFront.Proofs.Oberon0.Lexeme
import OberonFront.Proofs.FrontEnd.Lexeme
import OberonFront.Proofs.Text.Listing
import OberonFront.Proofs.FrontEnd.Listing
import OberonFront.Proofs.FrontEnd.Comment
import OberonFront.Proofs.Text.Breaks
import OberonFront.Proofs.Lexicon.Breaks
import OberonFront.Proofs.Lexicon.Unclosed
import OberonFront.Proofs.Parser.Offsets
import OberonFront.Proofs.Umbriel.LineEnds
import OberonFront.Proofs.Oberon0.Munch
import OberonFront.Proofs.FrontEnd.Unclosed
import OberonFront.Proofs.FrontEnd.LineEnds
import OberonFront.Proofs.Machine.Simulation
import OberonFront.Proofs.Parser.Visible
import OberonFront.Proofs.FrontEnd.Calls
import OberonFront.Proofs.FrontEnd.Reporting
import OberonFront.Proofs.FrontEnd.Modes
import OberonFront.Proofs.Command.Arguments
import OberonFront.Proofs.Command.Status
import OberonFront.Proofs.Machine.Repertoire
import OberonFront.Proofs.FrontEnd.Reportable
import OberonFront.Proofs.Parser.Deeds
import OberonFront.Proofs.FrontEnd.Throttle
import OberonFront.Proofs.Parser.Resync
import OberonFront.Proofs.FrontEnd.Resync
import OberonFront.Proofs.FrontEnd.Rows
import OberonFront.Proofs.Token.KindSet
import OberonFront.Proofs.Token.Stream
import OberonFront.Proofs.Text.Caret
import OberonFront.Proofs.Text.Quoted
import OberonFront.Proofs.FrontEnd.Dump
