import TorrentRemote.Model.Kind

/-!
# Torrents

What the daemon tells about a torrent, its files, peers and trackers, and the answers that hold
torrents.
-/

namespace TorrentRemote.Model

def torrentFile : Model := ⟨"TorrentFile", [
  (⟨"bytes_completed", "bytesCompleted"⟩, .integer),
  (⟨"length", "length"⟩, .integer),
  (⟨"name", "name"⟩, .text)]⟩

def fileStat : Model := ⟨"FileStat", [
  (⟨"bytes_completed", "bytesCompleted"⟩, .integer),
  (⟨"wanted", "wanted"⟩, .flag),
  (⟨"priority", "priority"⟩, .member .priority)]⟩

/-- A connected peer; rates are in bytes per second. -/
def peer : Model := ⟨"Peer", [
  (⟨"address", "address"⟩, .text),
  (⟨"client_name", "clientName"⟩, .text),
  (⟨"client_is_choked", "clientIsChoked"⟩, .flag),
  (⟨"client_is_interested", "clientIsInterested"⟩, .flag),
  (⟨"flag_str", "flagStr"⟩, .text),
  (⟨"is_downloading_from", "isDownloadingFrom"⟩, .flag),
  (⟨"is_encrypted", "isEncrypted"⟩, .flag),
  (⟨"is_incoming", "isIncoming"⟩, .flag),
  (⟨"is_uploading_to", "isUploadingTo"⟩, .flag),
  (⟨"is_utp", "isUTP"⟩, .flag),
  (⟨"peer_is_choked", "peerIsChoked"⟩, .flag),
  (⟨"peer_is_interested", "peerIsInterested"⟩, .flag),
  (⟨"port", "port"⟩, .integer),
  (⟨"progress", "progress"⟩, .number),
  (⟨"rate_to_client", "rateToClient"⟩, .integer),
  (⟨"rate_to_peer", "rateToPeer"⟩, .integer)]⟩

def peersFrom : Model := ⟨"PeersFrom", [
  (⟨"from_cache", "fromCache"⟩, .integer),
  (⟨"from_dht", "fromDht"⟩, .integer),
  (⟨"from_incoming", "fromIncoming"⟩, .integer),
  (⟨"from_lpd", "fromLpd"⟩, .integer),
  (⟨"from_ltep", "fromLtep"⟩, .integer),
  (⟨"from_pex", "fromPex"⟩, .integer),
  (⟨"from_tracker", "fromTracker"⟩, .integer)]⟩

def tracker : Model := ⟨"Tracker", [
  (⟨"announce", "announce"⟩, .text),
  (⟨"id", "id"⟩, .integer),
  (⟨"scrape", "scrape"⟩, .text),
  (⟨"tier", "tier"⟩, .integer)]⟩

def trackerStat : Model := ⟨"TrackerStat", [
  (⟨"announce", "announce"⟩, .text),
  (⟨"announce_state", "announceState"⟩, .member .state),
  (⟨"download_count", "downloadCount"⟩, .integer),
  (⟨"has_announced", "hasAnnounced"⟩, .flag),
  (⟨"has_scraped", "hasScraped"⟩, .flag),
  (⟨"host", "host"⟩, .text),
  (⟨"id", "id"⟩, .integer),
  (⟨"is_backup", "isBackup"⟩, .flag),
  (⟨"last_announce_peer_count", "lastAnnouncePeerCount"⟩, .integer),
  (⟨"last_announce_result", "lastAnnounceResult"⟩, .text),
  (⟨"last_announce_start_time", "lastAnnounceStartTime"⟩, .time),
  (⟨"last_announce_succeeded", "lastAnnounceSucceeded"⟩, .flag),
  (⟨"last_announce_time", "lastAnnounceTime"⟩, .time),
  (⟨"last_announce_timed_out", "lastAnnounceTimedOut"⟩, .flag),
  (⟨"last_scrape_result", "lastScrapeResult"⟩, .text),
  (⟨"last_scrape_start_time", "lastScrapeStartTime"⟩, .time),
  (⟨"last_scrape_succeeded", "lastScrapeSucceeded"⟩, .flag),
  (⟨"last_scrape_time", "lastScrapeTime"⟩, .time),
  (⟨"last_scrape_timed_out", "lastScrapeTimedOut"⟩, .flag),
  (⟨"leecher_count", "leecherCount"⟩, .integer),
  (⟨"next_announce_time", "nextAnnounceTime"⟩, .time),
  (⟨"next_scrape_time", "nextScrapeTime"⟩, .time),
  (⟨"scrape", "scrape"⟩, .text),
  (⟨"scrape_state", "scrapeState"⟩, .member .state),
  (⟨"seeder_count", "seederCount"⟩, .integer),
  (⟨"tier", "tier"⟩, .integer)]⟩

/-- A torrent. Sizes are in bytes, rates in bytes per second and limits in kilobytes per second. -/
def torrent : Model := ⟨"Torrent", [
  (⟨"activity_date", "activityDate"⟩, .time),
  (⟨"added_date", "addedDate"⟩, .time),
  (⟨"bandwidth_priority", "bandwidthPriority"⟩, .integer),
  (⟨"comment", "comment"⟩, .text),
  (⟨"corrupt_ever", "corruptEver"⟩, .integer),
  (⟨"creator", "creator"⟩, .text),
  (⟨"date_created", "dateCreated"⟩, .time),
  (⟨"desired_available", "desiredAvailable"⟩, .integer),
  (⟨"done_date", "doneDate"⟩, .time),
  (⟨"download_dir", "downloadDir"⟩, .text),
  (⟨"downloaded_ever", "downloadedEver"⟩, .integer),
  (⟨"download_limit", "downloadLimit"⟩, .integer),
  (⟨"download_limited", "downloadLimited"⟩, .flag),
  (⟨"error", "error"⟩, .integer),
  (⟨"error_string", "errorString"⟩, .text),
  (⟨"eta", "eta"⟩, .duration),
  (⟨"eta_idle", "etaIdle"⟩, .duration),
  (⟨"files", "files"⟩, .listOf torrentFile.kind),
  (⟨"file_stats", "fileStats"⟩, .listOf fileStat.kind),
  (⟨"hash_string", "hashString"⟩, .text),
  (⟨"have_unchecked", "haveUnchecked"⟩, .integer),
  (⟨"have_valid", "haveValid"⟩, .integer),
  (⟨"honors_session_limits", "honorsSessionLimits"⟩, .flag),
  (⟨"id", "id"⟩, .integer),
  (⟨"is_finished", "isFinished"⟩, .flag),
  (⟨"is_private", "isPrivate"⟩, .flag),
  (⟨"is_stalled", "isStalled"⟩, .flag),
  (⟨"labels", "labels"⟩, .listOf .text),
  (⟨"left_until_done", "leftUntilDone"⟩, .integer),
  (⟨"magnet_link", "magnetLink"⟩, .text),
  (⟨"manual_announce_time", "manualAnnounceTime"⟩, .duration),
  (⟨"max_connected_peers", "maxConnectedPeers"⟩, .integer),
  (⟨"metadata_percent_complete", "metadataPercentComplete"⟩, .number),
  (⟨"name", "name"⟩, .text),
  (⟨"peer_limit", "peer-limit"⟩, .integer),
  (⟨"peers", "peers"⟩, .listOf peer.kind),
  (⟨"peers_connected", "peersConnected"⟩, .integer),
  (⟨"peers_from", "peersFrom"⟩, peersFrom.kind),
  (⟨"peers_getting_from_us", "peersGettingFromUs"⟩, .integer),
  (⟨"peers_sending_to_us", "peersSendingToUs"⟩, .integer),
  (⟨"percent_done", "percentDone"⟩, .number),
  (⟨"pieces", "pieces"⟩, .content),
  (⟨"piece_count", "pieceCount"⟩, .integer),
  (⟨"piece_size", "pieceSize"⟩, .integer),
  (⟨"priorities", "priorities"⟩, .listOf (.member .priority)),
  (⟨"queue_position", "queuePosition"⟩, .integer),
  (⟨"rate_download", "rateDownload"⟩, .integer),
  (⟨"rate_upload", "rateUpload"⟩, .integer),
  (⟨"recheck_progress", "recheckProgress"⟩, .number),
  (⟨"seconds_downloading", "secondsDownloading"⟩, .duration),
  (⟨"seconds_seeding", "secondsSeeding"⟩, .duration),
  (⟨"seed_idle_limit", "seedIdleLimit"⟩, .integer),
  (⟨"seed_idle_mode", "seedIdleMode"⟩, .member .mode),
  (⟨"seed_ratio_limit", "seedRatioLimit"⟩, .number),
  (⟨"seed_ratio_mode", "seedRatioMode"⟩, .member .mode),
  (⟨"size_when_done", "sizeWhenDone"⟩, .integer),
  (⟨"start_date", "startDate"⟩, .time),
  (⟨"status", "status"⟩, .member .status),
  (⟨"trackers", "trackers"⟩, .listOf tracker.kind),
  (⟨"tracker_stats", "trackerStats"⟩, .listOf trackerStat.kind),
  (⟨"total_size", "totalSize"⟩, .integer),
  (⟨"torrent_file", "torrentFile"⟩, .text),
  (⟨"uploaded_ever", "uploadedEver"⟩, .integer),
  (⟨"upload_limit", "uploadLimit"⟩, .integer),
  (⟨"upload_limited", "uploadLimited"⟩, .flag),
  (⟨"upload_ratio", "uploadRatio"⟩, .number),
  (⟨"wanted", "wanted"⟩, .listOf .flag),
  (⟨"webseeds", "webseeds"⟩, .listOf .text),
  (⟨"webseeds_sending_to_us", "webseedsSendingToUs"⟩, .integer)]⟩

/-- The torrents asked for, and the numbers of those removed since recently active ones were last
asked for. -/
def torrentGetResponse : Model := ⟨"TorrentGetResponse", [
  (⟨"torrents", "torrents"⟩, .listOrEmpty torrent.kind),
  (⟨"removed", "removed"⟩, .listOrEmpty .any)]⟩

def torrentAddResponse : Model := ⟨"TorrentAddResponse", [
  (⟨"torrent_added", "torrent-added"⟩, torrent.kind),
  (⟨"torrent_duplicate", "torrent-duplicate"⟩, torrent.kind)]⟩

end TorrentRemote.Model
