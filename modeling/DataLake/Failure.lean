import DataLake.Fault

/-!
Everything that can end a step early: a fault of the library, a failure of the
connection or of the token source, a tripped halt flag, and values that an
operation cannot work with at all.
-/

namespace DataLake

inductive Failure where
  /-- A fault found and described by the library. -/
  | fault (f : Fault)
  /-- The connection failed, in the manner of the given name. -/
  | connection (name : Text)
  /-- No answer was left for the request. -/
  | noAnswer
  /-- The token source failed in a manner that no fault describes. -/
  | tokenSource (name : Text)
  /-- The halt flag was up. -/
  | halted
  /-- The body had been read to its end before. -/
  | alreadyRead
  /-- The body was closed. -/
  | bodyClosed
  /-- The URL of a request has no usable host, port or form. -/
  | urlMalformed
  /-- The URL of a request has no scheme. -/
  | urlWithoutScheme
  /-- The authority of a URL is not acceptable to the reader of its parts. -/
  | authorityMalformed
  /-- A header has a name or a value that no message can carry. -/
  | headerMalformed
  /-- A text with half of a surrogate pair was to be encoded. -/
  | textUnencodable
  /-- A user name or password in a URL has characters beyond Latin-1. -/
  | userInfoUnencodable
  /-- The account key is not base64. -/
  | keyMalformed
  /-- The account key has characters beyond ASCII. -/
  | keyNotAscii
  /-- The settings of a credential are not acceptable. -/
  | credentialMalformed
  /-- The time of signing has a year that dates cannot show. -/
  | timeUnprintable
  /-- The time of signing has a year that the clock cannot count. -/
  | timeUncountable
  /-- A number is too large to compute with. -/
  | numberTooLarge
  /-- A number has more digits than are ever written. -/
  | numberTooLong
  /-- A body holds arrays and objects nested too deep. -/
  | nestedTooDeep
  /-- A value of one kind stands where another kind is needed. -/
  | wrongKind
  /-- A value has no such part or operation. -/
  | wrongShape
  /-- The file to read from does not exist. -/
  | fileMissing
  /-- A file was asked for a negative number of bytes other than minus one. -/
  | readSizeInvalid
  /-- There is no memory for a read of so many bytes. -/
  | memoryExhausted
  /-- Nothing can be read from a value of the named kind. -/
  | notASource (kind : Text)
  /-- No object was opened under the name. -/
  | unknownHandle

def Failure.ofCause (cause : Cause) : Failure :=
  .fault { cause }

end DataLake
