import WriteAhead.Buffer.Aligned
import WriteAhead.Errno.Rendering
import WriteAhead.Options.Json
import WriteAhead.Options.Loading
import WriteAhead.Script.Scenario
import WriteAhead.Thread
import WriteAhead.Proofs.Accounting
import WriteAhead.Proofs.BoundedTexts
import WriteAhead.Proofs.Buffers
import WriteAhead.Proofs.Bystanders
import WriteAhead.Proofs.ByteFile
import WriteAhead.Proofs.Closing
import WriteAhead.Proofs.Contract
import WriteAhead.Proofs.EntryDirectory
import WriteAhead.Proofs.EntryStability
import WriteAhead.Proofs.Independence
import WriteAhead.Proofs.JsonForms
import WriteAhead.Proofs.Positions
import WriteAhead.Proofs.Race
import WriteAhead.Proofs.ReadOnly
import WriteAhead.Proofs.Reading
import WriteAhead.Proofs.Resizing
import WriteAhead.Proofs.Rounding
import WriteAhead.Proofs.SizeTexts
import WriteAhead.Proofs.SyncPolicy
import WriteAhead.Proofs.Traceless
import WriteAhead.Proofs.Writing
