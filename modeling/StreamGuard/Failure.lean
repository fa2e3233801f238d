import StreamGuard.ReaderState
import StreamGuard.Scalar
import StreamGuard.Text.Decimal

/-!
Failures, each named for its cause. `Failure.kind` tells the family a caller may catch it by, and
`Failure.message` its wording. A reader ends on failures that satisfy `Failure.endsStream` and on no others.
-/

namespace StreamGuard

inductive FailureKind
  | io | connectionReset | timedOut | wouldBlock | noPermission | notFound | isDirectory | notDirectory
  | unsupported
  | endOfFile | invalidValue | runtime | wrongType | noMethod | overflow | outOfMemory | internal | unknownName
  | readerClosed | unsafeContent | digestMismatch | sizeExceeded
  | request | requestConnection | requestTimeout | requestEncoding
  | transport | transportProtocol | transportDecoding
  deriving DecidableEq, Repr

namespace FailureKind

def isIo : FailureKind → Bool
  | io | connectionReset | timedOut | wouldBlock | noPermission | notFound | isDirectory | notDirectory
  | unsupported | unsafeContent | digestMismatch | sizeExceeded
  | request | requestConnection | requestTimeout | requestEncoding => true
  | _ => false

def isValidation : FailureKind → Bool
  | unsafeContent | digestMismatch | sizeExceeded => true
  | _ => false

def isValue : FailureKind → Bool
  | invalidValue | readerClosed | unsupported => true
  | _ => false

def isRequest : FailureKind → Bool
  | request | requestConnection | requestTimeout | requestEncoding => true
  | _ => false

def isTransport : FailureKind → Bool
  | transport | transportProtocol | transportDecoding => true
  | _ => false

end FailureKind

inductive ObjectKind
  | source | memory | file | localSource | remoteSource | digestReader | boundReader
  deriving DecidableEq, Repr

namespace ObjectKind

def name : ObjectKind → String
  | source => "Source"
  | memory => "BytesIO"
  | file => "BufferedReader"
  | localSource => "LocalByteSource"
  | remoteSource => "HTTPByteSource"
  | digestReader => "DigestVerifyingReader"
  | boundReader => "SizeBoundingReader"

def fullName : ObjectKind → String
  | memory => "_io.BytesIO"
  | file => "_io.BufferedReader"
  | k => k.name

end ObjectKind

inductive PathText
  | text (s : String)
  | bytes (bs : Bytes)
  deriving DecidableEq, Repr

namespace PathText

def quoted : PathText → String
  | text s => Text.Quoted.text s
  | bytes bs => Text.Quoted.bytes bs

def plain : PathText → String
  | text s => s
  | bytes bs => Text.Quoted.bytes bs

end PathText

inductive OpenError
  | notFound | notDirectory | isDirectory | nameTooLong
  deriving DecidableEq, Repr

namespace OpenError

def number : OpenError → Nat
  | notFound => 2
  | notDirectory => 20
  | isDirectory => 21
  | nameTooLong => 36

def text : OpenError → String
  | notFound => "No such file or directory"
  | notDirectory => "Not a directory"
  | isDirectory => "Is a directory"
  | nameTooLong => "File name too long"

def kind : OpenError → FailureKind
  | notFound => .notFound
  | notDirectory => .notDirectory
  | isDirectory => .isDirectory
  | nameTooLong => .io

end OpenError

inductive Failure
  | raised (kind : FailureKind) (message : String)
  -- verdicts of the readers
  | digestMismatch (calculated expected : Bytes)
  | sizeExceeded (limit : Int)
  | closedReader
  | streamEnded (state : ReaderState)
  | accumulatorSpent
  -- sources that break their contract
  | noData
  | noFileData
  | overlong (size asked : Nat)
  | noLength
  | notBytes
  | closedSource
  | closedFile
  -- buffers
  | noBuffer
  | noReadTarget
  | readOnlyTarget
  | readOnlyMemory
  | sliceMismatch
  -- requests over the network
  | requestFailed (reason : String)
  | badStatus (status : Int)
  | bodyFailed (reason : String)
  | badNumber (text : String)
  | longNumber (digits : Nat)
  -- arguments
  | negativeLimit
  | limitType (given : Scalar)
  | chunkSize
  | negativeCount
  | negativeSeek (position : Int)
  | countOverflow
  | sizeOverflow
  | tooManyBytes
  | countRange
  | negativeResult
  | outOfMemory
  | byteRange
  | encodingMissing
  | notConvertible
  | unknownAlgorithm (given : Scalar)
  | unknownState (given : Scalar)
  -- paths
  | opening (error : OpenError) (path : PathText)
  | nulInPath
  | notPath (given : ObjectKind)
  -- steps
  | noMethod (object : ObjectKind) (method : String)
  | noArgument (object : ObjectKind) (method argument : String)
  | notIterable (object : ObjectKind)
  | notIterator (object : ObjectKind)
  | unsupported (operation : String)
  | unknownName (name : String)
  | dangling
  | unfinished
  deriving DecidableEq, Repr

namespace Failure

def kind : Failure → FailureKind
  | raised k _ => k
  | digestMismatch _ _ => .digestMismatch
  | sizeExceeded _ => .sizeExceeded
  | closedReader | streamEnded _ => .readerClosed
  | noData | noFileData | overlong _ _ | closedSource | requestFailed _ | badStatus _ | bodyFailed _ => .io
  | noLength | notBytes | noBuffer | noReadTarget | readOnlyTarget | readOnlyMemory | limitType _
  | encodingMissing | notConvertible | notPath _ | noArgument _ _ _ | notIterable _ | notIterator _ => .wrongType
  | closedFile | sliceMismatch | badNumber _ | longNumber _ | negativeLimit | chunkSize | negativeCount
  | negativeSeek _ | countRange | byteRange | unknownAlgorithm _ | unknownState _ | nulInPath => .invalidValue
  | countOverflow | sizeOverflow | tooManyBytes => .overflow
  | outOfMemory => .outOfMemory
  | negativeResult | dangling | unfinished => .internal
  | opening e _ => e.kind
  | noMethod _ _ | accumulatorSpent => .noMethod
  | unsupported _ => .unsupported
  | unknownName _ => .unknownName

def message : Failure → String
  | raised _ m => m
  | digestMismatch c e => "hash mismatch: calculated " ++ Text.Hex.encode c ++ ", expected " ++ Text.Hex.encode e
  | sizeExceeded limit => "maximum size " ++ toString limit ++ " exceeded"
  | closedReader => "I/O operation on closed reader"
  | streamEnded state => "Read called after end of stream (" ++ state.text ++ ")"
  | accumulatorSpent => "digest already finalized"
  | noData => "Source returned no data without signalling end-of-stream"
  | noFileData => "File returned no data without signalling end of file"
  | overlong size asked =>
    "Source returned " ++ toString size ++ " bytes for a " ++ toString asked ++ " byte read"
  | noLength => "object of type 'NoneType' has no len()"
  | notBytes => "a bytes-like object is required, not 'str'"
  | closedSource => "Source is closed"
  | closedFile => "I/O operation on closed file."
  | noBuffer => "memoryview: a bytes-like object is required, not 'NoneType'"
  | noReadTarget => "readinto() argument must be read-write bytes-like object, not None"
  | readOnlyTarget => "readinto() argument must be read-write bytes-like object, not bytes"
  | readOnlyMemory => "cannot modify read-only memory"
  | sliceMismatch => "memoryview assignment: lvalue and rvalue have different structures"
  | requestFailed reason => "GET request failed: " ++ reason
  | badStatus status => "GET request failed with status " ++ toString status
  | bodyFailed reason => "Reading response body failed: " ++ reason
  | badNumber text =>
    "invalid literal for int() with base 10: " ++ String.ofList ((Text.Quoted.text text).toList.take 200)
  | longNumber digits =>
    "Exceeds the limit (" ++ toString Text.Decimal.digitLimit ++
      " digits) for integer string conversion: value has " ++ toString digits ++ " digits; use sys.set_int_max_str_digits() to increase the limit"
  | negativeLimit => "max_size cannot be negative"
  | limitType given =>
    "'<' not supported between instances of '" ++ given.typeName ++ "' and 'int'"
  | chunkSize => "chunk_size must be positive"
  | negativeCount => "negative count"
  | negativeSeek position => "negative seek value " ++ toString position
  | countOverflow => "cannot fit 'int' into an index-sized integer"
  | sizeOverflow => "Python int too large to convert to C ssize_t"
  | tooManyBytes => "byte string is too large"
  | countRange => "cannot fit 'int' into an index-sized integer"
  | negativeResult => "Negative size passed to PyBytes_FromStringAndSize"
  | outOfMemory => ""
  | byteRange => "bytes must be in range(0, 256)"
  | encodingMissing => "string argument without an encoding"
  | notConvertible => "cannot convert 'NoneType' object to bytes"
  | unknownAlgorithm given => given.shown ++ " is not a valid DigestAlgorithm"
  | unknownState given => given.shown ++ " is not a valid ReaderState"
  | opening e path => "[Errno " ++ toString e.number ++ "] " ++ e.text ++ ": " ++ path.quoted
  | nulInPath => "embedded null byte"
  | notPath given => "expected str, bytes or os.PathLike object, not " ++ given.name
  | noMethod object method => "'" ++ object.fullName ++ "' object has no attribute '" ++ method ++ "'"
  | noArgument object method argument =>
    object.name ++ "." ++ method ++ "() missing 1 required positional argument: '" ++ argument ++ "'"
  | notIterable object => "'" ++ object.fullName ++ "' object is not iterable"
  | notIterator object => "'" ++ object.fullName ++ "' object is not an iterator"
  | unsupported operation => operation
  | unknownName name => Text.Quoted.text name
  | dangling => "object is not there"
  | unfinished => "stream did not end"

def isIo (f : Failure) : Bool := f.kind.isIo

/-- A failure of input and output, or the refusal of a reader below, ends a stream for good. -/
def endsStream (f : Failure) : Bool :=
  f.kind.isIo || f.kind == .readerClosed

end Failure

end StreamGuard
