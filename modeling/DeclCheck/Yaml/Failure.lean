import DeclCheck.Yaml.Input
import DeclCheck.Yaml.Token

/-!
# What can be wrong with a document

A document fails in its bytes, in its tokens or in how the tokens go together. A failure of the
latter two names a line: the line where the construct began, unless that is the first, or else
the line where the problem is. Lines of token failures count from one and lines of structure
failures from zero, and line zero is not named.
-/
namespace DeclCheck.Yaml

/-- What was found, or was not found, in the tokens of a document or in their structure. -/
inductive Problem where
  | cannotStartToken
  | entryNotAllowed
  | keyNotAllowed
  | valueNotAllowed
  | expectedColon
  | tooDeep
  | unknownDirective
  | afterDirective
  | expectedDirectiveName
  | nonAlphabetic
  | expectedVersionPoint
  | longVersion
  | expectedVersion
  | expectedBlankInTagDirective
  | expectedBlankAfterTag
  | expectedAnchorName
  | expectedTagClose
  | expectedBang
  | expectedTagUri
  | expectedEscapedOctet
  | badLeadingOctet
  | badTrailingOctet
  | zeroIndentation
  | afterBlockHeader
  | tabInIndentation
  | documentIndicatorInQuotes
  | endInQuotes
  | unknownEscape
  | expectedHexDigits
  | badEscapedCode
  | tabViolatesIndentation
  | expectedDocumentStart
  | undefinedTagHandle
  | expectedNode
  | expectedEntry
  | expectedKey
  | expectedFlowSequenceEntry
  | expectedFlowMappingEntry
  | duplicateVersion
  | incompatibleVersion
  | duplicateTagDirective
  | pastEnd
  deriving DecidableEq, Repr

def Problem.message : Problem → Text
  | .cannotStartToken => "found character that cannot start any token"
  | .entryNotAllowed => "block sequence entries are not allowed in this context"
  | .keyNotAllowed => "mapping keys are not allowed in this context"
  | .valueNotAllowed => "mapping values are not allowed in this context"
  | .expectedColon => "could not find expected ':'"
  | .tooDeep => "exceeded max depth of 10000"
  | .unknownDirective => "found unknown directive name"
  | .afterDirective => "did not find expected comment or line break"
  | .expectedDirectiveName => "could not find expected directive name"
  | .nonAlphabetic => "found unexpected non-alphabetical character"
  | .expectedVersionPoint => "did not find expected digit or '.' character"
  | .longVersion => "found extremely long version number"
  | .expectedVersion => "did not find expected version number"
  | .expectedBlankInTagDirective => "did not find expected whitespace"
  | .expectedBlankAfterTag => "did not find expected whitespace or line break"
  | .expectedAnchorName => "did not find expected alphabetic or numeric character"
  | .expectedTagClose => "did not find the expected '>'"
  | .expectedBang => "did not find expected '!'"
  | .expectedTagUri => "did not find expected tag URI"
  | .expectedEscapedOctet => "did not find URI escaped octet"
  | .badLeadingOctet => "found an incorrect leading UTF-8 octet"
  | .badTrailingOctet => "found an incorrect trailing UTF-8 octet"
  | .zeroIndentation => "found an indentation indicator equal to 0"
  | .afterBlockHeader => "did not find expected comment or line break"
  | .tabInIndentation => "found a tab character where an indentation space is expected"
  | .documentIndicatorInQuotes => "found unexpected document indicator"
  | .endInQuotes => "found unexpected end of stream"
  | .unknownEscape => "found unknown escape character"
  | .expectedHexDigits => "did not find expected hexdecimal number"
  | .badEscapedCode => "found invalid Unicode character escape code"
  | .tabViolatesIndentation => "found a tab character that violates indentation"
  | .expectedDocumentStart => "did not find expected <document start>"
  | .undefinedTagHandle => "found undefined tag handle"
  | .expectedNode => "did not find expected node content"
  | .expectedEntry => "did not find expected '-' indicator"
  | .expectedKey => "did not find expected key"
  | .expectedFlowSequenceEntry => "did not find expected ',' or ']'"
  | .expectedFlowMappingEntry => "did not find expected ',' or '\x7d'"
  | .duplicateVersion => "found duplicate %YAML directive"
  | .incompatibleVersion => "found incompatible YAML document"
  | .duplicateTagDirective => "found duplicate %TAG directive"
  | .pastEnd => "attempted to go past the end of stream; corrupted value?"

inductive Failure where
  | bytes (fault : Fault)
  /-- The tokens are wrong; the construct began at `context`. -/
  | tokens (problem : Problem) (context place : Mark)
  /-- The tokens do not go together; the construct began at `context`. -/
  | structure (problem : Problem) (context place : Mark)
  | unknownAnchor (name : Text)
  | openAnchor (name : Text)
  deriving DecidableEq, Repr

/-- The line number before a message; line zero is not named. -/
def linePrefix : Nat → Text
  | 0 => []
  | n => "line " ++ Text.ofNat n ++ ": "

def Failure.message : Failure → Text
  | .bytes fault => "yaml: " ++ fault.message
  | .tokens problem context place =>
    let line := if context.line ≠ 0 then context.line + 1
      else if place.line ≠ 0 then place.line + 1 else 0
    "yaml: " ++ linePrefix line ++ problem.message
  | .structure problem context place =>
    let line := if context.line ≠ 0 then context.line else place.line
    "yaml: " ++ linePrefix line ++ problem.message
  | .unknownAnchor name => "yaml: unknown anchor '" ++ name ++ "' referenced"
  | .openAnchor name => "yaml: anchor '" ++ name ++ "' value contains itself"

end DeclCheck.Yaml
