import WordMachine.Main
import WordMachine.Proofs.BinaryImages
import WordMachine.Proofs.Budgets
import WordMachine.Proofs.CommandOutcomes
import WordMachine.Proofs.Dumps
import WordMachine.Proofs.FaultConditions
import WordMachine.Proofs.Frames
import WordMachine.Proofs.InputLocality
import WordMachine.Proofs.LifeCycle
import WordMachine.Proofs.ListingAddresses
import WordMachine.Proofs.ListingRanges
import WordMachine.Proofs.ListingText
import WordMachine.Proofs.Listings
import WordMachine.Proofs.LoadableImages
import WordMachine.Proofs.MemoryLedger
import WordMachine.Proofs.MemoryLocality
import WordMachine.Proofs.Observation
import WordMachine.Proofs.ProgramCounter
import WordMachine.Proofs.Residues
import WordMachine.Proofs.SettingsLayers
import WordMachine.Proofs.Subroutines
import WordMachine.Proofs.SyntaxErrors
import WordMachine.Proofs.Terminals
import WordMachine.Proofs.TextDecoding
import WordMachine.Proofs.Traces
import WordMachine.Proofs.Transfers
import WordMachine.Proofs.VectorRefinement
