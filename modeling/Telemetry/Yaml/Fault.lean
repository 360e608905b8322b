/-!
# What can be wrong with a document

The first group is about characters and tokens, the second about how tokens
combine into nodes, and the third about nodes that are not what a reader asked
for.
-/

namespace Telemetry.Yaml

inductive Fault where
  | forbiddenCharacter
  | strayCharacter
  | tabIndentation
  | unterminatedQuote
  | indicatorInQuote
  | unknownEscape
  | notACodePoint
  | blockScalarHeader
  | unexpectedColon
  | missingColon
  | misplacedEntry
  | misplacedKey
  | misplacedValue
  | anchorName
  | tagText
  | directiveText
  | expectedNode
  | expectedDocumentStart
  | expectedEntry
  | expectedKey
  | expectedFlowSeparator
  | duplicateDirective
  | unsupportedVersion
  | undefinedTagHandle
  | unknownAnchor
  | severalDocuments
  | unbounded
  | expectedMapping
  | expectedText
  | expectedNumber
  | unknownVariant
  | expectedNothing
  | duplicateField (name : String)
  | noDocument
  | other (message : String)
  deriving DecidableEq, Repr

def Fault.message : Fault → String
  | forbiddenCharacter => "control characters are not allowed"
  | strayCharacter => "found character that cannot start any token"
  | tabIndentation => "found a tab character that violates indentation"
  | unterminatedQuote => "found unexpected end of stream in a quoted scalar"
  | indicatorInQuote => "found unexpected document indicator in a quoted scalar"
  | unknownEscape => "found unknown escape character"
  | notACodePoint => "found invalid character code"
  | blockScalarHeader => "did not find expected comment or line break after a block scalar header"
  | unexpectedColon => "found unexpected colon in a plain scalar"
  | missingColon => "could not find expected colon after a key"
  | misplacedEntry => "block sequence entries are not allowed in this context"
  | misplacedKey => "mapping keys are not allowed in this context"
  | misplacedValue => "mapping values are not allowed in this context"
  | anchorName => "did not find expected alphabetic or numeric anchor name"
  | tagText => "did not find expected tag"
  | directiveText => "did not find expected directive"
  | expectedNode => "did not find expected node content"
  | expectedDocumentStart => "did not find expected document start"
  | expectedEntry => "did not find expected sequence entry"
  | expectedKey => "did not find expected key"
  | expectedFlowSeparator => "did not find expected comma or closing bracket"
  | duplicateDirective => "found duplicate directive"
  | unsupportedVersion => "found incompatible document version"
  | undefinedTagHandle => "found undefined tag handle"
  | unknownAnchor => "unknown anchor"
  | severalDocuments => "more than one document in the stream"
  | unbounded => "document nests without bound"
  | expectedMapping => "expected a mapping"
  | expectedText => "expected a string"
  | expectedNumber => "expected an unsigned integer in range"
  | unknownVariant => "unknown variant"
  | expectedNothing => "expected no content"
  | duplicateField name => "duplicate field " ++ name
  | noDocument => "end of stream where a value was expected"
  | other message => message

end Telemetry.Yaml
