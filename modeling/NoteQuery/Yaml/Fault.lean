import NoteQuery.Value.Shown
import NoteQuery.Yaml.Cursor

/-!
# Faults in YAML texts

Why a text is no YAML document, or a document no value, with the places that messages show.
-/

namespace NoteQuery.Yaml

inductive Activity
  | directive
  | reference
  | anchor
  | tagUri
  | tag
  | tagDirective
  | blockScalar
  | doubleQuoted
  | quotedScalar
  | simpleKey
  | nextToken
  | node
  | blockNode
  | flowNode
  | blockCollection
  | blockMapping
  | flowSequence
  | flowMapping
  | firstAnchor (name : String)
  | singleDocument
  | mapping
  | orderedMap
  | pairs

/-- What is wrong. `found` is the character met, or none at the end of the text. -/
inductive Problem
  | noToken (found : Option Char)
  | noColon
  | sequenceEntry
  | mappingKey
  | mappingValue
  | notAlphanumeric (found : Option Char)
  | noDigit (found : Option Char)
  | noDigitOrPoint (found : Option Char)
  | noDigitOrSpace (found : Option Char)
  | noSpace (found : Option Char)
  | noCommentOrBreak (found : Option Char)
  | noTagEnd (found : Option Char)
  | noBang (found : Option Char)
  | noUri (found : Option Char)
  | noUriEscape (found : Option Char)
  | badUriBytes (message : String)
  | zeroIndent
  | noIndicator (found : Option Char)
  | noEscapeDigits (count : Nat) (found : Option Char)
  | unknownEscape (found : Option Char)
  | endInQuotes
  | markerInQuotes
  | noDocumentStart (token : String)
  | duplicateVersion
  | incompatibleVersion
  | duplicateHandle (handle : String)
  | undefinedHandle (handle : String)
  | noContent (token : String)
  | noBlockEnd (token : String)
  | noSequenceEnd (token : String)
  | noMappingEnd (token : String)
  | undefinedAlias (name : String)
  | secondAnchor
  | anotherDocument
  | noConstructor (tag : String)
  | notScalar (kind : String)
  | notSequence (kind : String)
  | notMapping (kind : String)
  | notSequenceHere (kind : String)
  | notMappingHere (kind : String)
  | notSingle (count : Nat)
  | unhashableKey
  | badMerge (kind : String)
  | badMerges (kind : String)
  | notAscii (message : String)
  | badBase64 (message : String)

inductive Unbuildable
  | time (fault : TimeFault)
  | integer (base : Nat) (text : String)
  | float (text : String)
  | emptyNumber
  | truth (text : String)
  | timestamp
  | character (code : Nat)
  | surrogate (code : Nat)
  | digits (count : Nat)
  | tooLarge

inductive Fault
  | unprintable (position : Nat) (c : Char)
  | marked (activity : Option (Activity × Option Mark)) (problem : Problem) (mark : Mark)
  | unbuildable (cause : Unbuildable)

inductive FaultKind
  | yaml
  | value
  | overflow
  | lookup
  | index
  | attribute
  | encoding
  deriving DecidableEq

def Unbuildable.kind : Unbuildable → FaultKind
  | .time _ | .integer _ _ | .float _ | .digits _ => .value
  | .emptyNumber => .index
  | .truth _ => .lookup
  | .timestamp => .attribute
  | .character code => if code < 0x80000000 then .value else .overflow
  | .surrogate _ => .encoding
  | .tooLarge => .overflow

def Fault.kind : Fault → FaultKind
  | .unbuildable cause => cause.kind
  | _ => .yaml

def Activity.text : Activity → String
  | .directive => "while scanning a directive"
  | .reference => "while scanning an alias"
  | .anchor => "while scanning an anchor"
  | .tagUri => "while parsing a tag"
  | .tag => "while scanning a tag"
  | .tagDirective => "while parsing a directive"
  | .blockScalar => "while scanning a block scalar"
  | .doubleQuoted => "while scanning a double-quoted scalar"
  | .quotedScalar => "while scanning a quoted scalar"
  | .simpleKey => "while scanning a simple key"
  | .nextToken => "while scanning for the next token"
  | .node => "while parsing a node"
  | .blockNode => "while parsing a block node"
  | .flowNode => "while parsing a flow node"
  | .blockCollection => "while parsing a block collection"
  | .blockMapping => "while parsing a block mapping"
  | .flowSequence => "while parsing a flow sequence"
  | .flowMapping => "while parsing a flow mapping"
  | .firstAnchor name => "found duplicate anchor " ++ Text.quoted name ++ "; first occurrence"
  | .singleDocument => "expected a single document in the stream"
  | .mapping => "while constructing a mapping"
  | .orderedMap => "while constructing an ordered map"
  | .pairs => "while constructing pairs"

/-- How a message shows the character met. The end of the text shows as NUL. -/
def foundText (found : Option Char) : String := Text.quoted (String.ofList [found.getD (Char.ofNat 0)])

def Problem.text : Problem → String
  | .noToken c => "found character " ++ foundText c ++ " that cannot start any token"
  | .noColon => "could not find expected ':'"
  | .sequenceEntry => "sequence entries are not allowed here"
  | .mappingKey => "mapping keys are not allowed here"
  | .mappingValue => "mapping values are not allowed here"
  | .notAlphanumeric c => "expected alphabetic or numeric character, but found " ++ foundText c
  | .noDigit c => "expected a digit, but found " ++ foundText c
  | .noDigitOrPoint c => "expected a digit or '.', but found " ++ foundText c
  | .noDigitOrSpace c => "expected a digit or ' ', but found " ++ foundText c
  | .noSpace c => "expected ' ', but found " ++ foundText c
  | .noCommentOrBreak c => "expected a comment or a line break, but found " ++ foundText c
  | .noTagEnd c => "expected '>', but found " ++ foundText c
  | .noBang c => "expected '!', but found " ++ foundText c
  | .noUri c => "expected URI, but found " ++ foundText c
  | .noUriEscape c => "expected URI escape sequence of 2 hexadecimal numbers, but found " ++ foundText c
  | .badUriBytes message => message
  | .zeroIndent => "expected indentation indicator in the range 1-9, but found 0"
  | .noIndicator c => "expected chomping or indentation indicators, but found " ++ foundText c
  | .noEscapeDigits n c =>
    "expected escape sequence of " ++ toString n ++ " hexadecimal numbers, but found " ++ foundText c
  | .unknownEscape c => "found unknown escape character " ++ foundText c
  | .endInQuotes => "found unexpected end of stream"
  | .markerInQuotes => "found unexpected document separator"
  | .noDocumentStart t => "expected '<document start>', but found " ++ Text.quoted t
  | .duplicateVersion => "found duplicate YAML directive"
  | .incompatibleVersion => "found incompatible YAML document (version 1.* is required)"
  | .duplicateHandle h => "duplicate tag handle " ++ Text.quoted h
  | .undefinedHandle h => "found undefined tag handle " ++ Text.quoted h
  | .noContent t => "expected the node content, but found " ++ Text.quoted t
  | .noBlockEnd t => "expected <block end>, but found " ++ Text.quoted t
  | .noSequenceEnd t => "expected ',' or ']', but got " ++ Text.quoted t
  | .noMappingEnd t => "expected ',' or '\x7d', but got " ++ Text.quoted t
  | .undefinedAlias a => "found undefined alias " ++ Text.quoted a
  | .secondAnchor => "second occurrence"
  | .anotherDocument => "but found another document"
  | .noConstructor t => "could not determine a constructor for the tag " ++ Text.quoted t
  | .notScalar k => "expected a scalar node, but found " ++ k
  | .notSequence k => "expected a sequence node, but found " ++ k
  | .notMapping k => "expected a mapping node, but found " ++ k
  | .notSequenceHere k => "expected a sequence, but found " ++ k
  | .notMappingHere k => "expected a mapping of length 1, but found " ++ k
  | .notSingle n => "expected a single mapping item, but found " ++ toString n ++ " items"
  | .unhashableKey => "found unhashable key"
  | .badMerge k => "expected a mapping or list of mappings for merging, but found " ++ k
  | .badMerges k => "expected a mapping for merging, but found " ++ k
  | .notAscii message => "failed to convert base64 data into ascii: " ++ message
  | .badBase64 message => "failed to decode base64 data: " ++ message

def timeFaultText : TimeFault → String
  | .year n => "year " ++ toString n ++ " is out of range"
  | .month => "month must be in 1..12"
  | .day => "day is out of range for month"
  | .hour => "hour must be in 0..23"
  | .minute => "minute must be in 0..59"
  | .second => "second must be in 0..59"
  | .offset minutes =>
    "offset must be a timedelta strictly between -timedelta(hours=24) and timedelta(hours=24), not " ++
      Value.spanShown minutes ++ "."

def Unbuildable.text : Unbuildable → String
  | .time fault => timeFaultText fault
  | .integer base text =>
    "invalid literal for int() with base " ++ toString base ++ ": " ++ Text.quoted text
  | .float text => "could not convert string to float: " ++ Text.quoted text
  | .emptyNumber => "string index out of range"
  | .truth text => Text.quoted text
  | .timestamp => "'NoneType' object has no attribute 'groupdict'"
  | .character code =>
    if code < 0x80000000 then "chr() arg not in range(0x110000)"
    else "Python int too large to convert to C int"
  | .surrogate code => "character #x" ++ String.ofList (Text.hexadecimal 4 code) ++ ": surrogates not allowed"
  | .digits count =>
    "Exceeds the limit (" ++ toString Text.maxDigits ++ " digits) for integer string conversion: value has " ++
      toString count ++ " digits; use sys.set_int_max_str_digits() to increase the limit"
  | .tooLarge => "int too large to convert to float"

/-- The line around a place with a caret below it. Of long lines 37 characters are looked at on
either side, and five fewer than the 37th are shown. -/
def snippet (text : List Char) (m : Mark) : String :=
  let side (cs : List Char) : List Char × Bool :=
    let near := (cs.takeWhile (!isBreak ·)).take 37
    if near.length = 37 then (near.take 32, true) else (near, false)
  let (before, cutBefore) := side (text.take m.index).reverse
  let (after, cutAfter) := side (text.drop m.index)
  let head := if cutBefore then " ... ".toList else []
  let tail := if cutAfter then " ... ".toList else []
  String.ofList (List.replicate 4 ' ' ++ head ++ before.reverse ++ after ++ tail ++
    '\n' :: List.replicate (4 + before.length + head.length) ' ' ++ ['^'])

def markText (text : List Char) (m : Mark) : String :=
  "  in \"<unicode string>\", line " ++ toString (m.line + 1) ++ ", column " ++ toString (m.column + 1) ++
    ":\n" ++ snippet text m

/-- The message of a fault in a text. The place of the activity is left out where it is that
of the fault. -/
def Fault.message (text : List Char) : Fault → String
  | .unprintable position c =>
    "unacceptable character #x" ++ String.ofList (Text.hexadecimal 4 c.toNat) ++
      ": special characters are not allowed\n  in \"<unicode string>\", position " ++ toString position
  | .marked activity problem mark =>
    let context :=
      match activity with
      | none => []
      | some (a, none) => [a.text]
      | some (a, some m) =>
        a.text :: (if m.line = mark.line ∧ m.column = mark.column then [] else [markText text m])
    "\n".intercalate (context ++ [problem.text, markText text mark])
  | .unbuildable cause => cause.text

end NoteQuery.Yaml
