import Cookery.CommandLine.Invocation
import Cookery.CommandLine.Report
import Cookery.Cooking.Basic
import Cookery.Cooking.Block
import Cookery.Cooking.Event
import Cookery.Cooking.Loop
import Cookery.Cooking.Run
import Cookery.Cursor
import Cookery.Error
import Cookery.Ingredient.Basic
import Cookery.Ingredient.Line
import Cookery.Ingredient.Quantity
import Cookery.Kitchen.Basic
import Cookery.Kitchen.Container
import Cookery.Kitchen.Serving
import Cookery.Main
import Cookery.Proofs.Cooking.Checked
import Cookery.Proofs.Cooking.Countdown
import Cookery.Proofs.Cooking.DigitLines
import Cookery.Proofs.Cooking.Effect
import Cookery.Proofs.Cooking.Failures
import Cookery.Proofs.Cooking.Letters
import Cookery.Proofs.Cooking.Limits
import Cookery.Proofs.Cooking.Lockstep
import Cookery.Proofs.Cooking.Passes
import Cookery.Proofs.Cooking.PastTense
import Cookery.Proofs.Cooking.Progress
import Cookery.Proofs.Cooking.Replay
import Cookery.Proofs.Cooking.Reworking
import Cookery.Proofs.Cooking.Spelling
import Cookery.Proofs.Cooking.Stages
import Cookery.Proofs.Cooking.Structured
import Cookery.Proofs.Cooking.Trace
import Cookery.Proofs.Cooking.Work
import Cookery.Proofs.Ingredient.Layout
import Cookery.Proofs.Ingredient.Lines
import Cookery.Proofs.Kitchen.Contents
import Cookery.Proofs.Kitchen.Growth
import Cookery.Proofs.Kitchen.Provenance
import Cookery.Proofs.Kitchen.Renaming
import Cookery.Proofs.Kitchen.Serving
import Cookery.Proofs.Kitchen.Similarity
import Cookery.Proofs.Kitchen.Stirring
import Cookery.Proofs.Lists
import Cookery.Proofs.Reading.Acceptance
import Cookery.Proofs.Reading.Appending
import Cookery.Proofs.Reading.Calls
import Cookery.Proofs.Reading.ErrorLines
import Cookery.Proofs.Reading.Foresight
import Cookery.Proofs.Reading.Grammar
import Cookery.Proofs.Reading.LineEnds
import Cookery.Proofs.Reading.PlainWords
import Cookery.Proofs.Reading.Readable
import Cookery.Proofs.Reading.Reflow
import Cookery.Proofs.Reading.RoundTrip
import Cookery.Proofs.Reading.SecondCount
import Cookery.Proofs.Reading.Sections
import Cookery.Proofs.Reading.Texts
import Cookery.Proofs.Reading.WellFormed
import Cookery.Proofs.Recipe.Commuting
import Cookery.Proofs.Recipe.Documents
import Cookery.Proofs.Recipe.Observations
import Cookery.Proofs.Recipe.Renaming
import Cookery.Proofs.Recipe.Unserved
import Cookery.Proofs.Statement.Forms
import Cookery.Proofs.Statement.Sentences
import Cookery.Proofs.Statement.Wording
import Cookery.Proofs.Tables
import Cookery.Proofs.Text.Bytes
import Cookery.Proofs.Text.Lines
import Cookery.Proofs.Text.Numerals
import Cookery.Proofs.Text.Trimming
import Cookery.Recipe.Basic
import Cookery.Recipe.Printer
import Cookery.Recipe.Reader
import Cookery.Statement
import Cookery.Statement.Sentence
import Cookery.Table
import Cookery.Text.Blank
import Cookery.Text.Case
import Cookery.Text.Cut
import Cookery.Text.Digits
import Cookery.Text.Lines
import Cookery.Text.Lowercase
