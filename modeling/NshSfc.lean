import NshSfc.Library.Script
import NshSfc.Library.Match
import NshSfc.Library.FlowTable
import NshSfc.Library.Orbits
import NshSfc.Library.Delimited
import NshSfc.Library.Interleaving
import NshSfc.Python
import NshSfc.Database
import NshSfc.OpenFlow
import NshSfc.RowMatch
import NshSfc.App
import NshSfc.Packets
import NshSfc.Controller
import NshSfc.Sent
import NshSfc.Fuel
import NshSfc.Handler
import NshSfc.Demo
import NshSfc.Switch
import NshSfc.LastPacketIn
import NshSfc.DeleteFlow
import NshSfc.FailedActivation
import NshSfc.Keys
import NshSfc.FrameLaw
import NshSfc.Isolation
import NshSfc.Library.Run
import NshSfc.Operations
import NshSfc.Coexistence
import NshSfc.Pipeline
import NshSfc.Linked
import NshSfc.Sites
import NshSfc.SiteTables
import NshSfc.Chain
import NshSfc.SiteFrames
import NshSfc.ChainFrames
import NshSfc.Journey
import NshSfc.EndToEnd
import NshSfc.Library.Channels
import NshSfc.Async
import NshSfc.Provenance
import NshSfc.Outcomes
import NshSfc.Detection
import NshSfc.Library.Replace
import NshSfc.Bypass
import NshSfc.Deletion
import NshSfc.Reroot
import NshSfc.Library.Commuting
import NshSfc.Commuting
import NshSfc.Connections
import NshSfc.TableMiss
import NshSfc.Registry
import NshSfc.Arrivals
import NshSfc.Registrations
import NshSfc.Colocation
import NshSfc.Awareness
import NshSfc.Learning
import NshSfc.Library.Numerals
import NshSfc.Allocation
import NshSfc.Library.Sequencing
import NshSfc.Indexing
import NshSfc.Program
import NshSfc.Library.Placement
import NshSfc.Optimum
import NshSfc.Library.Layout
import NshSfc.DottedQuads
import NshSfc.Columns
import NshSfc.Prerequisites
import NshSfc.FlowIds
import NshSfc.Consumption
import NshSfc.Iterations
import NshSfc.Served
import NshSfc.Ports
import NshSfc.Skipping
import NshSfc.Agent
import NshSfc.Transit
import NshSfc.Listening
import NshSfc.Header
import NshSfc.HeaderFields
import NshSfc.ConstraintNames
import NshSfc.Decoding
import NshSfc.NxActions
import NshSfc.Library.Format
import NshSfc.Ofproto
import NshSfc.NxStructs
import NshSfc.NxmFields
import NshSfc.FlowSpecs
import NshSfc.LearnSpecs
import NshSfc.NxNat
import NshSfc.NxProperties
import NshSfc.NxSequences
import NshSfc.NxObjects
import NshSfc.ActionTrees
import NshSfc.ActionLists
import NshSfc.HandOver
import NshSfc.Deployment
import NshSfc.Announcements
import NshSfc.Rollout
import NshSfc.Settling
import NshSfc.Histories
import NshSfc.Locality
import NshSfc.Sharing
import NshSfc.Hosting
