import ProcessCensus.Census.Session
import ProcessCensus.Census.Table
import ProcessCensus.Darwin.Source
import ProcessCensus.DefaultRetention
import ProcessCensus.Linux.Source
import ProcessCensus.Memo.Session
import ProcessCensus.Record.Accounts
import ProcessCensus.Sizing.Rehearsal
import ProcessCensus.Unserved
import ProcessCensus.Windows.Source
import ProcessCensus.Proofs.Census.Descent
import ProcessCensus.Proofs.Census.Listing
import ProcessCensus.Proofs.Invocation.Channels
import ProcessCensus.Proofs.Invocation.Cursor
import ProcessCensus.Proofs.Linux.Lookup
import ProcessCensus.Proofs.Linux.Renaming
import ProcessCensus.Proofs.Memo.Expiry
import ProcessCensus.Proofs.Memo.Linearization
import ProcessCensus.Proofs.Memo.SingleFlight
import ProcessCensus.Proofs.Session.Arguments
import ProcessCensus.Proofs.Session.LastLook
import ProcessCensus.Proofs.Sizing.Attempts
import ProcessCensus.Proofs.Source.Native
import ProcessCensus.Proofs.Windows.Lookup
import ProcessCensus.Proofs.Environment
import ProcessCensus.Proofs.Invocation.Shape
import ProcessCensus.Proofs.Invocation.Cut
import ProcessCensus.Proofs.Census.Load
import ProcessCensus.Proofs.Census.Query
import ProcessCensus.Proofs.Census.ByPids
import ProcessCensus.Proofs.Linux.Owner
import ProcessCensus.Proofs.Record.Declared
import ProcessCensus.Proofs.Record.Overwriting
import ProcessCensus.Proofs.Record.Embedding
import ProcessCensus.Proofs.Windows.CommandLine
import ProcessCensus.Proofs.Source.Owners
import ProcessCensus.Proofs.Environment.Lines
import ProcessCensus.Proofs.Invocation.Separated
import ProcessCensus.Proofs.Release
import ProcessCensus.Proofs.Settings
import ProcessCensus.Proofs.DefaultRetention
import ProcessCensus.Proofs.Darwin.Decoding
import ProcessCensus.Proofs.Linux.StartTime
import ProcessCensus.Proofs.Linux.Parameter
import ProcessCensus.Proofs.Record.Strings
import ProcessCensus.Proofs.Source.ProcessorTime
import ProcessCensus.Proofs.Source.Milliseconds
