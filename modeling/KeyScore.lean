import KeyScore.Main
import KeyScore.Keymap.Document
import KeyScore.Midi.Decode
import KeyScore.Midi.Transcript
import KeyScore.Notation.Compile
import KeyScore.Player.Session
import KeyScore.Text.Alphanumeric
import KeyScore.Text.Blank
import KeyScore.Text.Capital
import KeyScore.Text.Lines
import KeyScore.Proofs.Player.Balance
import KeyScore.Proofs.Player.InHand
import KeyScore.Proofs.Player.Loaded
import KeyScore.Proofs.Player.Recording
import KeyScore.Proofs.Player.Telling
import KeyScore.Proofs.Midi.CutOff
import KeyScore.Proofs.Midi.Legibility
import KeyScore.Proofs.Midi.Meaning
import KeyScore.Proofs.Command.Flags
import KeyScore.Proofs.Notation.LastWord
import KeyScore.Proofs.Notation.NormalForm
import KeyScore.Proofs.Notation.Unusable
import KeyScore.Proofs.Notation.RunLengths
import KeyScore.Proofs.Notation.Concatenation
import KeyScore.Proofs.Settings
import KeyScore.Proofs.Fitting
import KeyScore.Proofs.Endless
import KeyScore.Proofs.Keymap.RoundTrip
import KeyScore.Proofs.Notation.Recompiling
import KeyScore.Proofs.Player.Importing
import KeyScore.Proofs.RestRuns
import KeyScore.Proofs.Midi.Quantities
import KeyScore.Proofs.Midi.Unheard
import KeyScore.Proofs.Midi.Bounds
