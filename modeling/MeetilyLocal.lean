import MeetilyLocal.Library.Binary32
import MeetilyLocal.Library.Timeline
import MeetilyLocal.Audio.RingBuffer
import MeetilyLocal.Audio.RingBufferAlignment
import MeetilyLocal.Audio.RingBufferLabels
import MeetilyLocal.Audio.RingBufferFlush
import MeetilyLocal.Library.Decimal
import MeetilyLocal.Library.Directory
import MeetilyLocal.Audio.IncrementalSaver
import MeetilyLocal.Audio.IncrementalSaverFaults
import MeetilyLocal.Audio.IncrementalSaverRoundTrip
import MeetilyLocal.Audio.TranscriptJournal
import MeetilyLocal.Library.Json
import MeetilyLocal.Audio.TranscriptJournalReplay
import MeetilyLocal.Library.Tasks
import MeetilyLocal.Recording.RecordingPhase
import MeetilyLocal.Recording.RecordingService
import MeetilyLocal.Library.Guard
import MeetilyLocal.Library.Counter
import MeetilyLocal.Library.Turns
import MeetilyLocal.WhisperEngine.EngineLease
import MeetilyLocal.WhisperEngine.LeaseExclusion
import MeetilyLocal.Recording.PhaseSnapshots
import MeetilyLocal.Recording.ManagerSlot
import MeetilyLocal.Recording.ManagerOwnership
import MeetilyLocal.Recording.ManagerSafety
import MeetilyLocal.Recording.SessionStates
import MeetilyLocal.Recording.FatalErrors
import MeetilyLocal.Recording.PhaseFlows
import MeetilyLocal.Recording.PhaseTable
import MeetilyLocal.Recording.SegmentDelivery
import MeetilyLocal.Recording.SegmentAccounts
import MeetilyLocal.Recording.SegmentsKept
import MeetilyLocal.Database.Transcripts
import MeetilyLocal.Recording.RecordingClock
import MeetilyLocal.Database.TranscriptReplace
import MeetilyLocal.Speakers.EmbeddingMath
import MeetilyLocal.Speakers.VoiceProfileMerge
import MeetilyLocal.Speakers.SpeakerNaming
import MeetilyLocal.Speakers.HistoryAgreement
import MeetilyLocal.Speakers.DiarizerSlot
import MeetilyLocal.Audio.TranscriptViews
import MeetilyLocal.Audio.TranscriptsJson
import MeetilyLocal.Audio.TranscriptFreshness
import MeetilyLocal.Utils.DownloadGuard
import MeetilyLocal.Speakers.Diarizer
import MeetilyLocal.Library.TextPositions
import MeetilyLocal.LlamaHelper.Generate
import MeetilyLocal.Library.Utf8Decoder
import MeetilyLocal.LlamaHelper.StreamedText
import MeetilyLocal.LlamaHelper.GeneratedText
import MeetilyLocal.Summary.ModelManager
import MeetilyLocal.Calendar.Repository
import MeetilyLocal.Database.SummaryProcesses
import MeetilyLocal.Library.TaskSimulation
import MeetilyLocal.Recording.ExitWait
import MeetilyLocal.WhisperEngine.EngineContexts
import MeetilyLocal.WhisperEngine.WhisperModels
import MeetilyLocal.WhisperEngine.ModelStatus
import MeetilyLocal.Summary.Sidecar
import MeetilyLocal.Summary.SidecarHandles
import MeetilyLocal.Summary.SidecarPairing
import MeetilyLocal.Database.ApiKeys
import MeetilyLocal.Database.SummaryReaders
import MeetilyLocal.Database.TranscriptOrder
import MeetilyLocal.Calendar.ReminderRuns
import MeetilyLocal.Audio.PlaybackRuns
import MeetilyLocal.Recording.PhaseTruth
import MeetilyLocal.Recording.StartFailures
import MeetilyLocal.Audio.Import
import MeetilyLocal.Audio.ImportExits
import MeetilyLocal.Audio.FinalizeCrash
import MeetilyLocal.Audio.RecoveryLoss
import MeetilyLocal.Database.TranscriptUpserts
import MeetilyLocal.Audio.LiveTranscript
import MeetilyLocal.Audio.RecoveredTranscript
import MeetilyLocal.Library.Linkage
import MeetilyLocal.Speakers.Clustering
import MeetilyLocal.Speakers.ExactClustering
import MeetilyLocal.Speakers.ClusterNames
import MeetilyLocal.Speakers.GuardedUpdate
import MeetilyLocal.Audio.RingBufferWaiting
import MeetilyLocal.Recording.ActiveDuration
import MeetilyLocal.Audio.RingBufferDiscards
import MeetilyLocal.Audio.RingBufferKeepsUp
import MeetilyLocal.Speakers.Enrollment
import MeetilyLocal.Library.LineBuffer
import MeetilyLocal.Ollama.Pull
import MeetilyLocal.Ollama.PullRuns
import MeetilyLocal.Audio.SilenceSplit
import MeetilyLocal.Speakers.SpeakerTurns
import MeetilyLocal.Library.LocalAgreement
import MeetilyLocal.Audio.PartialWorker
import MeetilyLocal.Audio.PartialSnapshots
import MeetilyLocal.Audio.EchoDedup
import MeetilyLocal.Audio.TranscriptDbWriter
import MeetilyLocal.Audio.EmptySession
import MeetilyLocal.Audio.MeetingMetadata
import MeetilyLocal.Summary.Processor
import MeetilyLocal.Summary.TokenBudget
import MeetilyLocal.Summary.ChunkProgress
import MeetilyLocal.Summary.TokenSums
import MeetilyLocal.Summary.Reduce
import MeetilyLocal.Library.Lowercase
import MeetilyLocal.Summary.MeetingTitle
import MeetilyLocal.Summary.ActionExtraction
import MeetilyLocal.Summary.TranscriptWindows
import MeetilyLocal.Library.Like
import MeetilyLocal.Database.MatchContext
import MeetilyLocal.Database.TranscriptSearch
import MeetilyLocal.Audio.ChunkedResample
import MeetilyLocal.Audio.Clip
import MeetilyLocal.Calendar.Durations
import MeetilyLocal.Library.SortedInsertion
import MeetilyLocal.Recording.TranscriptRows
import MeetilyLocal.Calendar.EventTimes
import MeetilyLocal.Calendar.StoredTimes
import MeetilyLocal.Utils.Slugify
import MeetilyLocal.Database.ActionItems
import MeetilyLocal.Summary.LiveActionItems
import MeetilyLocal.Utils.DownloadFile
import MeetilyLocal.Library.Squares
import MeetilyLocal.WhisperEngine.RepetitionCleanup
import MeetilyLocal.Meeting.SummaryPanel
import MeetilyLocal.Meeting.Page
import MeetilyLocal.Meeting.StaleCompletions
import MeetilyLocal.Library.FloatRounding
import MeetilyLocal.Library.EditDistance
import MeetilyLocal.Audio.EchoSimilarity
import MeetilyLocal.Speakers.FallbackLabels
import MeetilyLocal.Speakers.ProfileNames
import MeetilyLocal.Summary.MeetingSummary
import MeetilyLocal.Summary.CancellationRegistry
import MeetilyLocal.Mcp.Snippets
import MeetilyLocal.Mcp.MeetingTimes
import MeetilyLocal.Mcp.MeetingList
import MeetilyLocal.Library.Tables
import MeetilyLocal.Library.Retry
import MeetilyLocal.Library.Purge
import MeetilyLocal.Library.FirstOfKey
import MeetilyLocal.Database.ActionItemCalls
import MeetilyLocal.Database.MeetingStore
import MeetilyLocal.Database.StoreReferences
import MeetilyLocal.Database.StoreCalls
import MeetilyLocal.Database.StoreRuns
import MeetilyLocal.Database.ItemRuns
import MeetilyLocal.Mcp.WriteTools
import MeetilyLocal.Summary.LlmClient
import MeetilyLocal.Summary.ItemParsing
import MeetilyLocal.Summary.TranscriptExtraction
import MeetilyLocal.Library.Tickets
import MeetilyLocal.Transcription.Worker
import MeetilyLocal.Transcription.Backlog
import MeetilyLocal.Transcription.InOrder
import MeetilyLocal.Transcription.QueueDepth
import MeetilyLocal.Transcription.Numbering
import MeetilyLocal.Transcription.SpeechDetected
import MeetilyLocal.Transcription.Echoes
import MeetilyLocal.Transcription.Drain
