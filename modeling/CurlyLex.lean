import CurlyLex.CharClass.Survey
import CurlyLex.Files.Tree
import CurlyLex.Main
import CurlyLex.Proofs.Accounting
import CurlyLex.Proofs.CommandLines
import CurlyLex.Proofs.Delimiters
import CurlyLex.Proofs.EndOfInput
import CurlyLex.Proofs.HeldTexts
import CurlyLex.Proofs.ListedTokens
import CurlyLex.Proofs.Listings
import CurlyLex.Proofs.LongestMatch
import CurlyLex.Proofs.PrintedWords
import CurlyLex.Proofs.Reclassification
import CurlyLex.Proofs.Runs
import CurlyLex.Proofs.Spacing
import CurlyLex.Proofs.Steps
import CurlyLex.Proofs.Streaming
import CurlyLex.Proofs.WordLayouts
import CurlyLex.Scanner.Session
