import JsonQuery.Description
import JsonQuery.Proofs.Alike.KeyOrder
import JsonQuery.Proofs.Alike.Spelling
import JsonQuery.Proofs.Balance
import JsonQuery.Proofs.Document.Accepted
import JsonQuery.Proofs.Document.Agreement
import JsonQuery.Proofs.Document.Conversion
import JsonQuery.Proofs.Document.Denotation
import JsonQuery.Proofs.Document.Embedded
import JsonQuery.Proofs.Document.Message
import JsonQuery.Proofs.Document.Word
import JsonQuery.Proofs.Failure.Height
import JsonQuery.Proofs.Failure.Regular
import JsonQuery.Proofs.Flatten
import JsonQuery.Proofs.HostSequence
import JsonQuery.Proofs.Numeric
import JsonQuery.Proofs.Order.Distinct
import JsonQuery.Proofs.Order.Extreme
import JsonQuery.Proofs.Order.Twin
import JsonQuery.Proofs.Pipe
import JsonQuery.Proofs.Projection
import JsonQuery.Proofs.Slice
import JsonQuery.Proofs.Slice.Agreement
import JsonQuery.Proofs.Snapshot
import JsonQuery.Proofs.Equality.Laws
import JsonQuery.Proofs.Document.Coincidence
import JsonQuery.Proofs.Comparison
import JsonQuery.Proofs.Order.Dedup
import JsonQuery.Proofs.Object.Items
import JsonQuery.Proofs.Object.Merge
import JsonQuery.Proofs.Record
import JsonQuery.Proofs.Transposition
import JsonQuery.Proofs.Signature
import JsonQuery.Proofs.Shuffle
