import Chatterino.Channels.MergedEchoes
import Chatterino.LiveUpdates.PubSubUnsubscribe
import Chatterino.Filters.Equality
import Chatterino.Filters.TypeSoundness
import Chatterino.Filters.PrintRoundTrip
import Chatterino.Kick.KickLostSocket
import Chatterino.Kick.KickOutstanding
import Chatterino.Kick.KickBackoff
import Chatterino.YouTube.YouTubeSending
import Chatterino.YouTube.YouTubePolling
import Chatterino.Splits.SplitCancel
import Chatterino.Common.VectorRuns
import Chatterino.Channels.CommandRouting
import Chatterino.Layouts.Reordering
import Chatterino.Layouts.SelectionText
import Chatterino.Layouts.WordWrapping
import Chatterino.Layouts.FinishedLines
import Chatterino.ChannelViews.SelectionRuns
import Chatterino.ChannelViews.ScrollRuns
import Chatterino.ChannelViews.PauseRuns
import Chatterino.Seventv.EmoteSetRuns
import Chatterino.Twitch.JoinRuns
import Chatterino.Windows.DuplicatedTabs
import Chatterino.EventSub.Assertions
import Chatterino.EventSub.Leaks
import Chatterino.EventSub.ListRuns
import Chatterino.Common.CredentialJobs
import Chatterino.Irc.ConnectionRuns
import Chatterino.Kick.ApiRefreshes
import Chatterino.Kick.LoginRuns
import Chatterino.YouTube.AccountRuns
import Chatterino.Twitch.HistoryRuns
import Chatterino.Twitch.LiveUpdateRuns
import Chatterino.Commands.CommandController
import Chatterino.Commands.OnePass
import Chatterino.Completion.SmartEmoteStrategy
import Chatterino.Twitch.ThreadRuns
import Chatterino.Common.WebSocketConnection
import Chatterino.Seventv.ChannelEmotes
import Chatterino.Twitch.PinnedMessage
import Chatterino.Seventv.PersonalEmotes
import Chatterino.Kick.OAuthFlow
import Chatterino.Common.NetworkTask
import Chatterino.YouTube.ChatOrder
import Chatterino.Twitch.LiveHandover
import Chatterino.Twitch.HandlerBounds
import Chatterino.Kick.PositionedEmotes
import Chatterino.Messages.MessageSimilarity
import Chatterino.YouTube.JsonBlob
import Chatterino.Emojis.ParsedEmojis
import Chatterino.Common.LinkDissection
import Chatterino.Twitch.EmoteOccurrences
import Chatterino.Twitch.TagStrings
import Chatterino.Twitch.UpsertedEmotes
import Chatterino.Util.Durations
import Chatterino.Messages.Cheermotes
import Chatterino.Highlights.HighlightController
import Chatterino.Util.CodepointSlice
import Chatterino.Singletons.LoggingChannel
import Chatterino.Twitch.TwitchUsers
import Chatterino.Common.HttpCache
import Chatterino.Hotkeys.HotkeySettings
import Chatterino.Windows.ActivatedChannel
import Chatterino.Messages.Frames
import Chatterino.Windows.NotebookRuns
import Chatterino.Splits.InlineReplies
import Chatterino.Singletons.ImageUploader
import Chatterino.Ignores.SinglePass
import Chatterino.Filters.SkippedText
import Chatterino.ChannelViews.SearchPopup
import Chatterino.LiveUpdates.PubSubTexts
import Chatterino.Common.ChatterSet
