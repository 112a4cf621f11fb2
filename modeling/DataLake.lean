import DataLake.Registry
import DataLake.Session
import DataLake.Codec.Hex
import DataLake.Proofs.Contiguity
import DataLake.Proofs.Establishment
import DataLake.Proofs.ReadRun
import DataLake.Proofs.Confinement
import DataLake.Proofs.Cursor
import DataLake.Proofs.Decoding
import DataLake.Proofs.Conversation
import DataLake.Proofs.ListingRun
import DataLake.Proofs.Course
import DataLake.Proofs.Commitment
import DataLake.Proofs.Recreation
import DataLake.Proofs.Isolation
import DataLake.Proofs.ListedPaths
import DataLake.Proofs.OneShotRun
import DataLake.Proofs.Move
import DataLake.Proofs.Secrecy
import DataLake.Proofs.Construction
import DataLake.Proofs.Precedence
import DataLake.Proofs.SourceUpload
import DataLake.Proofs.Unambiguity
import DataLake.Proofs.ListingBody
import DataLake.Proofs.Presentation
import DataLake.Proofs.ReadEnd
import DataLake.Proofs.ChunkLength
import DataLake.Proofs.RangeHeader
import DataLake.Proofs.HaltedWrite
import DataLake.Proofs.Positions
import DataLake.Proofs.DateNumbers
import DataLake.Proofs.HeaderMetadata
import DataLake.Proofs.NamedBackends
import DataLake.Proofs.Setters
import DataLake.Proofs.KnownHost
import DataLake.Proofs.DirectoryMarks
import DataLake.Proofs.NormalRoot
import DataLake.Proofs.Ancestry
import DataLake.Proofs.CivilTime
import DataLake.Proofs.DateHeader
import DataLake.Proofs.Nesting
import DataLake.Proofs.FailureReport
import DataLake.Proofs.Notes
