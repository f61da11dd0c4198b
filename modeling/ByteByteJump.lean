import ByteByteJump.Image.Edits
import ByteByteJump.Journal.Reader
import ByteByteJump.Keypad.Spelling
import ByteByteJump.LateJump
import ByteByteJump.Machine.Transcript
import ByteByteJump.Main
import ByteByteJump.Memory.Writes
import ByteByteJump.Unmasked
import ByteByteJump.Proofs.Run
import ByteByteJump.Proofs.Agreement
import ByteByteJump.Proofs.Unmasked
import ByteByteJump.Proofs.Guarded
import ByteByteJump.Proofs.Forgetting
import ByteByteJump.Proofs.Reachable
import ByteByteJump.Proofs.TickBound
import ByteByteJump.Proofs.Chain.Layout
import ByteByteJump.Proofs.Stores
import ByteByteJump.Proofs.RoundTrip
import ByteByteJump.Proofs.Chain.Pass
import ByteByteJump.Proofs.Outputs
import ByteByteJump.Proofs.Chain.Loop
import ByteByteJump.Proofs.Noninterference
import ByteByteJump.Proofs.Origin
import ByteByteJump.Proofs.Independence
import ByteByteJump.Proofs.Chain.Order
import ByteByteJump.Proofs.Margin
import ByteByteJump.Proofs.Reload
import ByteByteJump.Proofs.Demo.Layout
import ByteByteJump.Proofs.Demo.Run
import ByteByteJump.Proofs.Checksum
import ByteByteJump.Proofs.Replay
import ByteByteJump.Proofs.Account
import ByteByteJump.Proofs.LateJump
import ByteByteJump.Proofs.Spelling
import ByteByteJump.Proofs.Headless
import ByteByteJump.Proofs.Chain.Split
import ByteByteJump.Proofs.HeaderFields
import ByteByteJump.Proofs.Anywhere
import ByteByteJump.Proofs.FailedLoads
import ByteByteJump.Proofs.Views
import ByteByteJump.Proofs.LastStore
