import GettextTemplate.Calendar
import GettextTemplate.Catalog

/-!
Templates in the gettext format. A template is an optional header and one block for each message,
with a blank line between neighbours. A text of several lines is written as adjacent literals, one
for each line.
-/

namespace GettextTemplate.Template

/-- Turns each carriage return and line feed that stand together into a line feed. -/
def joinReturns : List Char → List Char
  | [] => []
  | '\r' :: '\n' :: rest => '\n' :: joinReturns rest
  | c :: rest => c :: joinReturns rest

def escapeReturns (text : List Char) : List Char :=
  text.flatMap fun c => if c = '\r' then ['\\', 'r'] else [c]

/-- Ends a literal at each line feed, after an escape for it, and opens another on a new line. -/
def continueLines (text : List Char) : List Char :=
  text.flatMap fun c => if c = '\n' then ['\\', 'n', '"', '\n', '"'] else [c]

/-- The text of a message as it is written between its first quote and its last. -/
def literalText (text : List Char) : List Char :=
  continueLines (escapeReturns (joinReturns text))

/-- The block of one message: its context, its text and an empty text for another language. -/
def block (m : Message) : String :=
  "msgctxt \"" ++ m.scope ++ "\"\nmsgid \"" ++ String.ofList (literalText m.text.toList) ++
    "\"\nmsgstr \"\"\n"

/-- The header is a message without context whose text is empty. Only its creation date is filled
in, the rest is left to the person who completes the file. -/
def header (created : String) : String :=
  "# SOME DESCRIPTIVE TITLE.\n" ++
  "# Copyright (C) YEAR THE PACKAGE'S COPYRIGHT HOLDER\n" ++
  "# This file is distributed under the same license as the PACKAGE package.\n" ++
  "# FIRST AUTHOR <EMAIL@ADDRESS>, YEAR.\n" ++
  "#\n" ++
  "msgid \"\"\n" ++
  "msgstr \"\"\n" ++
  "\"Project-Id-Version: PACKAGE VERSION\\n\"\n" ++
  "\"Report-Msgid-Bugs-To: \\n\"\n" ++
  "\"POT-Creation-Date: " ++ created ++ "\\n\"\n" ++
  "\"PO-Revision-Date: YEAR-MO-DA HO:MI+ZONE\\n\"\n" ++
  "\"Last-Translator: FULL NAME <EMAIL@ADDRESS>\\n\"\n" ++
  "\"Language-Team: LANGUAGE <LL@li.org>\\n\"\n" ++
  "\"Language: \\n\"\n" ++
  "\"MIME-Version: 1.0\\n\"\n" ++
  "\"Content-Type: text/plain; charset=UTF-8\\n\"\n" ++
  "\"Content-Transfer-Encoding: 8bit\\n\"\n"

/-- What stands for the creation date in a header that has none yet. -/
def datePlaceholder : String := "\x7bcreation_date\x7d"

/-- How a template is written: with a header or without, and under which file name extension. -/
structure Format where
  hasHeader : Bool := true
  extension : String := "pot"

def formatName : String := "pot"

/-- Adds a block after a blank line, which only an empty text does without. -/
def appendBlock (text : String) (m : Message) : String :=
  (if text.isEmpty then text else text ++ "\n") ++ block m

/-- The template of a catalog that was created at a second, counted from 1970-01-01 00:00. -/
def compose (format : Format) (catalog : Catalog) (created : Int) : String :=
  catalog.messages.foldl appendBlock
    (if format.hasHeader then header (Minute.ofUnixSeconds created).stamp else "")

end GettextTemplate.Template
