import CollaboraOnline.Browser.DeltaStream
import CollaboraOnline.Lib.Run
import CollaboraOnline.Lib.Conflation
import CollaboraOnline.Wsd.TileCache
import CollaboraOnline.Wsd.TileBroker
import CollaboraOnline.Wsd.TileMoves
import CollaboraOnline.Wsd.TileSubscriptions
import CollaboraOnline.Wsd.DeltaChain
import CollaboraOnline.Kit.ModifiedState
import CollaboraOnline.Wsd.DocumentBroker
import CollaboraOnline.Wsd.DocumentUpload
import CollaboraOnline.Wsd.DocumentBrokerPoll
import CollaboraOnline.Wsd.DocumentMoves
import CollaboraOnline.Wsd.DocumentSteps
import CollaboraOnline.Kit.BgSaveParent
import CollaboraOnline.Wsd.Unloading
import CollaboraOnline.Wsd.UploadVersions
import CollaboraOnline.Wsd.DataLoss
import CollaboraOnline.Wsd.FileTimestamp
import CollaboraOnline.Wsd.SaveAcknowledgement
import CollaboraOnline.Wsd.SavesInFlight
import CollaboraOnline.Wsd.ActivitySteps
import CollaboraOnline.Wsd.Activities
import CollaboraOnline.Kit.KitQueue
import CollaboraOnline.Wsd.StorageLock
import CollaboraOnline.Kit.TileQueue
import CollaboraOnline.Wsd.DeltaBase
import CollaboraOnline.Lib.Incremental
import CollaboraOnline.Net.WebSocketHandler
import CollaboraOnline.Net.WebSocketChunks
import CollaboraOnline.Net.WebSocketStream
import CollaboraOnline.Lib.Arrivals
import CollaboraOnline.Net.HttpHeader
import CollaboraOnline.Net.HttpResponse
import CollaboraOnline.Net.HttpWire
import CollaboraOnline.Net.HttpResponseStream
import CollaboraOnline.Net.HttpRequest
import CollaboraOnline.Net.HttpRequestStream
import CollaboraOnline.Net.HttpRequestRoundtrip
import CollaboraOnline.Browser.SlurpQueue
import CollaboraOnline.Browser.TileCombineThrottle
import CollaboraOnline.Wsd.ProxyDelivery
import CollaboraOnline.Wsd.TileAccounting
import CollaboraOnline.Wsd.RequestVettingStation
import CollaboraOnline.Wsd.VettingOutcome
import CollaboraOnline.Wsd.VettingTransparency
import CollaboraOnline.Browser.TilesMiddleware
import CollaboraOnline.Browser.TileTransactions
import CollaboraOnline.Browser.TileDeltas
import CollaboraOnline.Browser.TileImages
import CollaboraOnline.Net.RequestFraming
import CollaboraOnline.Lib.Blocks
import CollaboraOnline.Kit.Protocol
import CollaboraOnline.Kit.TextCombining
import CollaboraOnline.Browser.ReconnectQueue
import CollaboraOnline.Common.ThreadPool
import CollaboraOnline.Wsd.TileDescText
import CollaboraOnline.Wsd.TileInvalidation
import CollaboraOnline.Wsd.SenderQueue
import CollaboraOnline.Wsd.TileCombinedText
import CollaboraOnline.Wsd.RenderTiles
import CollaboraOnline.Browser.SheetGeometry
import CollaboraOnline.Browser.SheetPositions
import CollaboraOnline.Browser.TileBitmaps
import CollaboraOnline.Wsd.HostUtil
import CollaboraOnline.Browser.TileRequests
import CollaboraOnline.Browser.ZoomPositions
import CollaboraOnline.Kit.CallbackConflation
import CollaboraOnline.Kit.CallbackInvalidations
import CollaboraOnline.Net.WebSocketBounds
import CollaboraOnline.Wsd.InvalidationRequests
import CollaboraOnline.Wsd.KeyframeRequests
import CollaboraOnline.Wsd.ProxyBounds
import CollaboraOnline.Wsd.RenderArea
import CollaboraOnline.Wsd.StorageAttributes
import CollaboraOnline.Kit.TileSpans
import CollaboraOnline.Lib.Memo
import CollaboraOnline.Lib.Search
import CollaboraOnline.Common.StringVector
import CollaboraOnline.Common.StreamSearch
import CollaboraOnline.Net.Multipart
import CollaboraOnline.Wsd.Quarantine
import CollaboraOnline.Wsd.QuarantineSpace
import CollaboraOnline.Wsd.ClipboardOrigin
import CollaboraOnline.Wsd.RequestDetails
import CollaboraOnline.Wsd.RequestFields
import CollaboraOnline.Wsd.AdminModel
import CollaboraOnline.Wsd.PreProcessedFile
import CollaboraOnline.Wsd.PageSettings
import CollaboraOnline.Kit.DeltaRowPaths
import CollaboraOnline.Browser.DimensionOutlines
import CollaboraOnline.Browser.FirstVisibleRow
import CollaboraOnline.Browser.GridLines
import CollaboraOnline.Browser.ZoomPaths
import CollaboraOnline.Net.Buffer
import CollaboraOnline.Common.Strtol
import CollaboraOnline.Common.Clipboard
import CollaboraOnline.Common.StringTokens
import CollaboraOnline.Net.SocketPoll
import CollaboraOnline.Net.SocketWakeups
import CollaboraOnline.Net.SocketCustody
import CollaboraOnline.Net.SocketPass
import CollaboraOnline.Net.FakeSocket
import CollaboraOnline.Net.FakeSocketRecords
import CollaboraOnline.Browser.RenderedImages
import CollaboraOnline.Wsd.PrespawnChildren
import CollaboraOnline.Net.StreamSocket
import CollaboraOnline.Net.StreamSocketBytes
import CollaboraOnline.Net.HttpSessionConnections
import CollaboraOnline.Net.WebSocketPeers
