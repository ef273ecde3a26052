import FlowTemplate.Main
import FlowTemplate.Proofs.Except
import FlowTemplate.Proofs.Balance
import FlowTemplate.Proofs.Text
import FlowTemplate.Proofs.Reading
import FlowTemplate.Proofs.Translation
import FlowTemplate.Proofs.Pass
import FlowTemplate.Proofs.Template.Basic
import FlowTemplate.Proofs.Template.Reading
import FlowTemplate.Proofs.Template.Branches
import FlowTemplate.Proofs.Template.Compile
import FlowTemplate.Proofs.Guard.Formula
import FlowTemplate.Proofs.Guard.Truth
import FlowTemplate.Proofs.Markup
import FlowTemplate.Proofs.Interpolation.Reading
import FlowTemplate.Proofs.Interpolation.Level
import FlowTemplate.Proofs.Interpolation.Seam
import FlowTemplate.Proofs.Interpolation.Pairs
import FlowTemplate.Proofs.Interpolation.Body
import FlowTemplate.Proofs.Interpolation.Encoding
import FlowTemplate.Proofs.Interpolation.Script
import FlowTemplate.Proofs.Interpolation.OpeningTag
import FlowTemplate.Proofs.Interpolation.Placement
import FlowTemplate.Proofs.Interpolation.Content
import FlowTemplate.Proofs.Interpolation.StartTag
import FlowTemplate.Proofs.PropertyBinding
import FlowTemplate.Proofs.SelectMarker
import FlowTemplate.Proofs.Pipeline
import FlowTemplate.Proofs.Attribute
import FlowTemplate.Proofs.Keyword
import FlowTemplate.Proofs.Outline.Group
import FlowTemplate.Proofs.Outline.Arm
import FlowTemplate.Proofs.Outline.Printed
import FlowTemplate.Proofs.Outline.Basic
import FlowTemplate.Proofs.Outline.Run
import FlowTemplate.Proofs.Outline.Siblings
import FlowTemplate.Proofs.Outline.Extent
import FlowTemplate.Proofs.LoopClause
import FlowTemplate.Proofs.Minify.Document
import FlowTemplate.Proofs.Outline.Mention
import FlowTemplate.Proofs.Outline.Log
import FlowTemplate.Proofs.Select.Reading
import FlowTemplate.Proofs.Select.Basic
import FlowTemplate.Proofs.Select.Markup
import FlowTemplate.Proofs.Select.Loops
import FlowTemplate.Proofs.Select.Parting
import FlowTemplate.Proofs.Select.Compile
import FlowTemplate.Proofs.Select.Agreement
import FlowTemplate.Proofs.Minify.Loops
import FlowTemplate.Proofs.Minify.Parts
import FlowTemplate.Proofs.Template.Commute
import FlowTemplate.Proofs.Outline.Nesting
import FlowTemplate.Proofs.Faults
import FlowTemplate.Proofs.Select.Behind
import FlowTemplate.Proofs.Select.Frame
import FlowTemplate.Proofs.Spelling
import FlowTemplate.Proofs.Unresolved
import FlowTemplate.Proofs.Workspace
import FlowTemplate.Proofs.CommandLine
import FlowTemplate.Proofs.Partner
import FlowTemplate.Proofs.Location
import FlowTemplate.Proofs.AliasClause
import FlowTemplate.Proofs.Steps.Basic
import FlowTemplate.Proofs.Steps.Content
import FlowTemplate.Proofs.Steps.Order
