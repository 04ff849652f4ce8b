import ClassPatch.Bytes.Hex
import ClassPatch.Bytes.Word
import ClassPatch.Text.Printable
import ClassPatch.Text.FloatText
import ClassPatch.Text.Quoted
import ClassPatch.Text.JavaString
import ClassPatch.Text.ModifiedUtf8
import ClassPatch.Bytecode.Opcode
import ClassPatch.Bytecode.Frame
import ClassPatch.Bytecode.Instruction
import ClassPatch.ClassFile.Error
import ClassPatch.ClassFile.Reader
import ClassPatch.ClassFile.PoolEntry
import ClassPatch.ClassFile.Pool
import ClassPatch.ClassFile.Attribute
import ClassPatch.ClassFile.Raw
import ClassPatch.Model.Constant
import ClassPatch.Model.Class
import ClassPatch.Model.Resolve
import ClassPatch.Model.Intern
import ClassPatch.Model.ElementValue
import ClassPatch.Bytecode.Decode
import ClassPatch.Bytecode.Layout
import ClassPatch.Bytecode.Equivalence
import ClassPatch.Model.Read
import ClassPatch.Model.Write
import ClassPatch.Delta.Difference
import ClassPatch.Delta.Error
import ClassPatch.Delta.Apply
import ClassPatch.Delta.Compare
import ClassPatch.Delta.Parallel
import ClassPatch.Json.Value
import ClassPatch.Json.Read
import ClassPatch.JsonForm.Text
import ClassPatch.JsonForm.Constant
import ClassPatch.JsonForm.Code
import ClassPatch.JsonForm.Class
import ClassPatch.JsonForm.Difference
import ClassPatch.Text.Blank
import ClassPatch.Delta.Flags
import ClassPatch.Json.Scan
import ClassPatch.Json.Cursor
import ClassPatch.Patch.Payload
import ClassPatch.Patch.Shape
import ClassPatch.Patch.Record
import ClassPatch.Patch.Document
import ClassPatch.Patch.Basic
import ClassPatch.Compress.Crc32
import ClassPatch.Compress.Inflate
import ClassPatch.Compress.Gzip
import ClassPatch.Compress.Stored
import ClassPatch.Compress.Deflate
import ClassPatch.Text.Utf8
import ClassPatch.Archive.Error
import ClassPatch.Archive.Read
import ClassPatch.Archive.Write
import ClassPatch.Proofs.ClassMap
import ClassPatch.Proofs.Monad
import ClassPatch.Proofs.Agreement
import ClassPatch.Proofs.Members
import ClassPatch.Proofs.Equivalence
import ClassPatch.Proofs.ClassReplay
import ClassPatch.Proofs.Reconstruction
import ClassPatch.Proofs.Parallel
import ClassPatch.Proofs.Encoding
import ClassPatch.Proofs.Codec
import ClassPatch.Proofs.Utf
import ClassPatch.Proofs.RawFormat
import ClassPatch.Proofs.SlotSearch
import ClassPatch.Proofs.Interning
import ClassPatch.Proofs.InstructionCodec
import ClassPatch.Proofs.JsonText
import ClassPatch.Proofs.TextForms
import ClassPatch.Proofs.DocumentShapes
import ClassPatch.Proofs.PatchRecords
import ClassPatch.Proofs.PatchDocument
import ClassPatch.Proofs.MemberRoundTrip
import ClassPatch.Proofs.EquivalenceLaws
import ClassPatch.Proofs.PoolValues
import ClassPatch.Proofs.InstructionStream
import ClassPatch.Proofs.DecodedLabels
import ClassPatch.Proofs.StoredBlocks
import ClassPatch.Proofs.LossyUtf8
import ClassPatch.Proofs.ArchiveRoundTrip
import ClassPatch.Proofs.Misfits
import ClassPatch.Proofs.SnapshotLoading
import ClassPatch.Proofs.SkippedMarkers
import ClassPatch.Proofs.DescriptorSlots
import ClassPatch.Proofs.DynamicNesting
import ClassPatch.Proofs.TrailingBytes
import ClassPatch.Proofs.PoolStability
import ClassPatch.Proofs.WideningLoop
import ClassPatch.Proofs.PoolSlots
import ClassPatch.Proofs.FrameTable
import ClassPatch.Proofs.JavaStringForms
import ClassPatch.Proofs.ClassRoundTrip
import ClassPatch.Proofs.CodeInterning
import ClassPatch.Proofs.InstructionReadBack
import ClassPatch.Proofs.BodyViews
import ClassPatch.Proofs.DecodedViews
import ClassPatch.Proofs.EmittedOffsets
import ClassPatch.Proofs.MarkerTables
import ClassPatch.Proofs.BodyRoundTrip
import ClassPatch.Proofs.ClassReadBack
