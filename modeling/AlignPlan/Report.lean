import AlignPlan.Fault
import AlignPlan.Format.Document
import AlignPlan.Report.Snippet

/-! Reports to the user. A reporter knows the files it can quote and keeps what was handed to
it; a report whose file it does not know is kept but not shown. -/
namespace AlignPlan

open Report (Severity Piece SourceFile)

/-- A report with the place it is about, if it has one. -/
structure Diagnostic where
  severity : Severity
  message : String
  place : Option Span
  deriving DecidableEq

/-- A report and how it is shown. -/
structure Handed where
  diagnostic : Diagnostic
  shown : Option (List Piece)

structure Reporter where
  files : List SourceFile
  handed : List Handed

namespace Diagnostic

def severityLabel : Severity → String
  | .error => "Error"
  | .warning => "Warning"

/-- What is shown, unless the place is in an unknown file. -/
def pieces? (d : Diagnostic) (files : List SourceFile) : Option (List Piece) :=
  match d.place with
  | none =>
    some (Report.styled (.general d.severity) (severityLabel d.severity) ++
      [.text (": " ++ d.message ++ "\n")])
  | some place =>
    files[place.file]?.map fun file =>
      Report.snippet d.severity d.message file place.start place.stop

/-- A fault, at the place where its automaton is declared if that is known. -/
def ofFault (fault : Fault) (place : Option Span) : Diagnostic := ⟨.error, fault.message, place⟩

def ofComplaint (complaint : Complaint) (file : Nat) : Diagnostic :=
  ⟨.error, complaint.message, some ⟨complaint.start, complaint.stop, file⟩⟩

def hiddenRecord (d : Diagnostic) : Log.Record :=
  ⟨.warn, .reporting, "could not render diagnostic `" ++ d.message ++ "`: file missing"⟩

end Diagnostic

def Handed.render (coloured : Bool) (h : Handed) : String :=
  match h.shown with
  | some pieces => Report.renderPieces coloured pieces
  | none => ""

def Handed.log (h : Handed) : List Log.Record :=
  if h.shown.isSome then [] else [h.diagnostic.hiddenRecord]

namespace Reporter

def empty : Reporter := ⟨[], []⟩

/-- A file is known by its position from then on. -/
def addFile (r : Reporter) (name text : String) : Reporter :=
  { r with files := r.files ++ [⟨name, text⟩] }

/-- Rendered with the files known at this time. -/
def hand (r : Reporter) (d : Diagnostic) : Reporter :=
  { r with handed := r.handed ++ [⟨d, d.pieces? r.files⟩] }

/-- Reads a text as a new file and reports why it cannot be read, if so. -/
def parse (r : Reporter) (name text : String) : Reporter × Except Complaint Document :=
  let file := r.files.length
  let r := r.addFile name text
  match Document.parse file text with
  | .ok d => (r, .ok d)
  | .error complaint => (r.hand (.ofComplaint complaint file), .error complaint)

/-- Everything shown so far. -/
def text (r : Reporter) (coloured : Bool) : String :=
  String.join (r.handed.map (Handed.render coloured))

end Reporter

end AlignPlan
