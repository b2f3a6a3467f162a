import FormReader.Main
import FormReader.Form.Sketch
import FormReader.Reader.Session
import FormReader.Proofs.WholeInput
import FormReader.Proofs.Descent
import FormReader.Proofs.Leniency
import FormReader.Proofs.Sharing
import FormReader.Proofs.Retrial
import FormReader.Proofs.EndOfInput
import FormReader.Proofs.Batches
import FormReader.Proofs.Folding
import FormReader.Proofs.Writing
import FormReader.Proofs.Decoding
import FormReader.Proofs.Faithful
import FormReader.Proofs.Words
import FormReader.Proofs.Exact
import FormReader.Proofs.Loading
import FormReader.Proofs.Effects
import FormReader.Proofs.Channels
import FormReader.Proofs.ExitCodes
import FormReader.Proofs.Holes
import FormReader.Proofs.Postorder
import FormReader.Proofs.Sets
import FormReader.Proofs.Validation
import FormReader.Proofs.Layout
